import ScopedCommands.Document.Basic

namespace ScopedCommands.Document

def jsonChar (c : Char) : List Char :=
  if c = '"' ∨ c = '\\' then ['\\', c]
  else if c = '\x08' then ['\\', 'b']
  else if c = '\t' then ['\\', 't']
  else if c = '\n' then ['\\', 'n']
  else if c = '\x0c' then ['\\', 'f']
  else if c = '\r' then ['\\', 'r']
  else if c.toNat < 0x20 then
    let digits := Nat.toDigits 16 c.toNat
    ['\\', 'u'] ++ List.replicate (4 - digits.length) '0' ++ digits
  else [c]

def jsonText (s : String) : String :=
  String.ofList ('"' :: s.toList.flatMap jsonChar ++ ['"'])

def indentation (level : Nat) : String := String.ofList (List.replicate (2 * level) ' ')

def bracketed (opening closing : String) (level : Nat) (lines : List String) : String :=
  if lines.isEmpty then opening ++ closing
  else
    opening ++ "\n" ++ ",\n".intercalate (lines.map (indentation (level + 1) ++ ·)) ++ "\n"
      ++ indentation level ++ closing

mutual

def toJson (level : Nat) : Document → String
  | .scalar .text s => jsonText s
  | .scalar .null _ => "null"
  | .scalar _ s => s
  | .list items => bracketed "[" "]" level (itemLines (level + 1) items)
  | .map entries => bracketed "\x7b" "\x7d" level (entryLines (level + 1) entries)

def itemLines (level : Nat) : List Document → List String
  | [] => []
  | doc :: rest => toJson level doc :: itemLines level rest

def entryLines (level : Nat) : List (String × Document) → List String
  | [] => []
  | (key, doc) :: rest => (jsonText key ++ ": " ++ toJson level doc) :: entryLines level rest

end

end ScopedCommands.Document
