namespace ScopedCommands.Yaml

structure Cursor where
  column : Nat
  rest : List Char

def isSpace (c : Char) : Bool := c = ' ' || c = '\t'

def blankNext : List Char → Bool
  | [] => true
  | c :: _ => isSpace c || c = '\n'

namespace Cursor

/-- Passes over spaces, comments and line breaks, and tells whether there was a line break. A tab
does not indent a line outside of brackets. -/
def skip (flow comment atStart crossed : Bool) (column : Nat) : List Char → Bool × Cursor
  | [] => (crossed, ⟨column, []⟩)
  | c :: rest =>
    if c = '\n' then skip flow false true true 0 rest
    else if comment then skip flow true atStart crossed (column + 1) rest
    else if c = '#' then skip flow true atStart crossed (column + 1) rest
    else if c = ' ' ∨ (c = '\t' ∧ (flow ∨ !atStart)) then
      skip flow false atStart crossed (column + 1) rest
    else (crossed, ⟨column, c :: rest⟩)

def gap (c : Cursor) : Bool × Cursor := skip false false (c.column = 0) false c.column c.rest

def flowGap (c : Cursor) : Cursor := (skip true false false false c.column c.rest).2

def crossesLine (before after : Cursor) : Bool :=
  (before.rest.take (before.rest.length - after.rest.length)).contains '\n'

def atEntry (c : Cursor) : Bool :=
  match c.rest with
  | '-' :: rest => blankNext rest
  | _ => false

end Cursor
end ScopedCommands.Yaml
