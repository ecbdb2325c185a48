import ScopedCommands.Toml.Number
import ScopedCommands.Toml.Table
import ScopedCommands.Toml.Text

/-!
TOML texts as documents. A text is a sequence of lines that define a key or open a table. The fuel
bounds the nesting and the number of items; each takes at least one character.
-/
namespace ScopedCommands.Toml

def isWordChar (c : Char) : Bool :=
  c.isAlphanum || c = '_' || c = '+' || c = '-' || c = '.' || c = ':'

/-- A value without marks around it. A single space may part a date from its time. -/
def word (cs : List Char) : Option (Document × List Char) :=
  let first := cs.takeWhile isWordChar
  let rest := cs.dropWhile isWordChar
  let (text, rest) := match rest with
    | ' ' :: d :: _ =>
      if isDate first ∧ d.isDigit then
        (first ++ ' ' :: (rest.drop 1).takeWhile isWordChar, (rest.drop 1).dropWhile isWordChar)
      else (first, rest)
    | _ => (first, rest)
  let shown := String.ofList text
  if shown = "true" ∨ shown = "false" then some (.scalar .boolean shown, rest)
  else if isNumber text then some (.scalar .number shown, rest)
  else none

mutual

def value : Nat → List Char → Option (Document × List Char)
  | 0, _ => none
  | fuel + 1, cs =>
    match cs with
    | '"' :: _ | '\'' :: _ => (anyString cs).map fun r => (.text r.1, r.2)
    | '[' :: rest => items fuel [] rest
    | '{' :: rest =>
      match skipSpaces rest with
      | '}' :: rest => some (.map [], rest)
      | rest => inlineEntries fuel [] rest
    | _ => word cs

def items : Nat → List Document → List Char → Option (Document × List Char)
  | 0, _, _ => none
  | fuel + 1, done, cs =>
    match skipLines cs.length cs with
    | none => none
    | some (']' :: rest) => some (.list done, rest)
    | some cs => do
      let (item, rest) ← value fuel cs
      match ← skipLines rest.length rest with
      | ',' :: rest => items fuel (done ++ [item]) rest
      | ']' :: rest => some (.list (done ++ [item]), rest)
      | _ => none

def inlineEntries : Nat → Entries → List Char → Option (Document × List Char)
  | 0, _, _ => none
  | fuel + 1, done, cs => do
    let (entry, rest) ← keyValue fuel cs
    let done ← defineDotted entry.2 entry.1 done
    match skipSpaces rest with
    | ',' :: rest => inlineEntries fuel done rest
    | '}' :: rest => some (.map (documents done), rest)
    | _ => none

def keyValue : Nat → List Char → Option ((List String × Document) × List Char)
  | 0, _ => none
  | fuel + 1, cs => do
    let (key, rest) ← dottedKey (cs.length + 1) cs
    match rest with
    | '=' :: rest =>
      let (doc, rest) ← value fuel (skipSpaces rest)
      some ((key, doc), rest)
    | _ => none

end

def lineEnd (cs : List Char) : Option (List Char) :=
  match skipComment (skipSpaces cs) with
  | some [] => some []
  | some ('\n' :: rest) => some rest
  | _ => none

/-- A line: the table that is open after it, the tables after it, and what is left. -/
def line (fuel : Nat) (current : List String) (root : Entries) (cs : List Char) :
    Option (List String × Entries × List Char) :=
  match cs with
  | '[' :: '[' :: rest => do
    let (path, rest) ← dottedKey (rest.length + 1) rest
    match rest with
    | ']' :: ']' :: rest =>
      let root ← atPath (openArray (path.getLastD "")) path.dropLast root
      some (path, root, ← lineEnd rest)
    | _ => none
  | '[' :: rest => do
    let (path, rest) ← dottedKey (rest.length + 1) rest
    match rest with
    | ']' :: rest =>
      let root ← atPath (openTable (path.getLastD "")) path.dropLast root
      some (path, root, ← lineEnd rest)
    | _ => none
  | _ => do
    let ((key, doc), rest) ← keyValue fuel cs
    let root ← atPath (defineDotted doc key) current root
    some (current, root, ← lineEnd rest)

def lines (depth : Nat) : Nat → List String → Entries → List Char → Option Entries
  | 0, _, _, _ => none
  | fuel + 1, current, root, cs =>
    match skipLines cs.length cs with
    | none => none
    | some [] => some root
    | some cs =>
      match line depth current root cs with
      | none => none
      | some (current, root, rest) => lines depth fuel current root rest

def unifyBreaks : List Char → List Char
  | [] => []
  | '\r' :: '\n' :: rest => '\n' :: unifyBreaks rest
  | c :: rest => c :: unifyBreaks rest

def parse (text : String) : Option Document :=
  let cs := unifyBreaks (match text.toList with
    | '\uFEFF' :: rest => rest
    | cs => cs)
  let fuel := 2 * cs.length + 2
  (lines fuel fuel [] [] cs).map fun root => .map (documents root)

end ScopedCommands.Toml
