import ScopedCommands.Name
import ScopedCommands.Text.Basic

/-!
The grammar of raw texts: `%{NAME}` refers to a variable, a backslash before `%` or a backslash
stands for that character, and all else is literal. `scan` reads items one by one and stops at the
first place where none starts; `parse` merges the literal ones.

Positions count UTF-8 bytes from the start of the text.
-/
namespace ScopedCommands

inductive ReferenceError
  | badEscape (written : String) (position : Nat)
  | unclosed (fragment : String)
  | emptyName (position : Nat)
  | badName (name : String) (position : Nat)
deriving DecidableEq

def ReferenceError.message : ReferenceError → String
  | .badEscape written position =>
    s!"Invalid escape sequence {Text.quote written} at position {position}"
  | .unclosed fragment => s!"Unclosed variable reference: {Text.quote fragment}"
  | .emptyName position => s!"Empty variable name at position {position}"
  | .badName name position => s!"Invalid variable name {Text.quote name} at position {position}"

inductive Segment
  | literal (text : String)
  | reference (name : String) (position : Nat)
deriving DecidableEq

namespace Reference

open Text (untilClose eq_of_untilClose)

inductive Item
  | escaped (c : Char)
  | plain (c : Char)
  | reference (name : List Char) (position : Nat)
deriving DecidableEq

def byteLength : List Char → Nat
  | [] => 0
  | c :: rest => c.utf8Size + byteLength rest

def scan (position : Nat) (text : List Char) : Except ReferenceError (List Item) :=
  match text with
  | [] => .ok []
  | ['\\'] => .error (.badEscape "\\" position)
  | '\\' :: c :: rest =>
    if c = '%' ∨ c = '\\' then (scan (position + 2) rest).map (.escaped c :: ·)
    else .error (.badEscape (String.ofList ['\\', c]) position)
  | '%' :: '{' :: rest =>
    match closed : untilClose rest with
    | none => .error (.unclosed (String.ofList text))
    | some (name, tail) =>
      if name = [] then .error (.emptyName position)
      else if name.all Name.isNameChar then
        (scan (position + byteLength name + 3) tail).map (.reference name position :: ·)
      else .error (.badName (String.ofList name) position)
  | c :: rest => (scan (position + c.utf8Size) rest).map (.plain c :: ·)
termination_by text.length
decreasing_by
  · simp only [List.length_cons]; omega
  · simp only [eq_of_untilClose closed, List.length_cons, List.length_append]; omega
  · simp

def prepend (c : Char) : List Segment → List Segment
  | .literal text :: rest => .literal (String.ofList [c] ++ text) :: rest
  | segments => .literal (String.ofList [c]) :: segments

def merge : List Item → List Segment
  | [] => []
  | .escaped c :: rest => prepend c (merge rest)
  | .plain c :: rest => prepend c (merge rest)
  | .reference name position :: rest =>
    .reference (String.ofList name) position :: merge rest

def parse (raw : String) : Except ReferenceError (List Segment) :=
  (scan 0 raw.toList).map merge

def namesOf : List Segment → List String
  | [] => []
  | .literal _ :: rest => namesOf rest
  | .reference name _ :: rest => name :: (namesOf rest).filter (· != name)

def collect (raw : String) : Except ReferenceError (List String) :=
  (parse raw).map namesOf

def escape (text : String) : String :=
  String.ofList (text.toList.flatMap fun c => if c = '%' ∨ c = '\\' then ['\\', c] else [c])

def Segment.render : Segment → String
  | .literal text => escape text
  | .reference name _ => "%\x7b" ++ name ++ "\x7d"

end Reference
end ScopedCommands
