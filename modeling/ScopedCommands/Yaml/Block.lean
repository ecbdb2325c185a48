import ScopedCommands.Yaml.Flow

/-!
Collections by indentation. The entries of one collection start in one column; what belongs to an
entry starts further to the right, but for sequences, which may start in the column of their key.
-/
namespace ScopedCommands.Yaml

def key? (c : Cursor) : Option (String × Cursor) :=
  let scalar : Option (List Char × Cursor) := match c.rest with
    | '"' :: _ | '\'' :: _ => quoted c
    | _ =>
      if startsPlain false c.rest then
        (plainLine false false c.column c.rest).map fun r => (trimEnd r.1, r.2)
      else none
  match scalar with
  | none => none
  | some (text, after) =>
    let spaces := after.rest.takeWhile isSpace
    match after.rest.drop spaces.length with
    | ':' :: rest =>
      if blankNext rest ∧ !c.crossesLine after then
        some (String.ofList text, ⟨after.column + spaces.length + 1, rest⟩)
      else none
    | _ => none

def inlineNode (fuel indent : Nat) (c : Cursor) : Option (Document × Cursor) :=
  match c.rest with
  | '"' :: _ | '\'' :: _ => (quoted c).map fun r => (.text (String.ofList r.1), r.2)
  | '[' :: _ | '{' :: _ => flowNode fuel c
  | '|' :: rest => (literal indent rest).map fun r => (.text (String.ofList r.1), r.2)
  | _ => (plain false indent c).map fun r => (plainScalar r.1, r.2)

mutual

/-- The node at a token; its further lines have at least the given indentation. -/
def blockNode : Nat → Nat → Cursor → Option (Document × Cursor)
  | 0, _, _ => none
  | fuel + 1, indent, c =>
    if c.atEntry then blockItems fuel c.column [] c
    else if (key? c).isSome then blockEntries fuel c.column [] c
    else inlineNode fuel indent c

def blockValue : Nat → Nat → Cursor → Option (Document × Cursor)
  | 0, _, _ => none
  | fuel + 1, column, after =>
    let (crossed, next) := after.gap
    if next.rest = [] then some (plainScalar [], after)
    else if !crossed then inlineNode fuel (column + 1) next
    else if column < next.column then blockNode fuel (column + 1) next
    else if next.column = column ∧ next.atEntry then blockItems fuel column [] next
    else some (plainScalar [], after)

def blockEntries : Nat → Nat → Document.Entries → Cursor → Option (Document × Cursor)
  | 0, _, _, _ => none
  | fuel + 1, column, entries, c => do
    let (key, after) ← key? c
    let (value, after) ← blockValue fuel column after
    let entries := entries ++ [(key, value)]
    let (crossed, next) := after.gap
    if next.rest = [] then some (.map entries, after)
    else if !crossed ∨ column < next.column then none
    else if next.column = column then blockEntries fuel column entries next
    else some (.map entries, after)

def blockItems : Nat → Nat → List Document → Cursor → Option (Document × Cursor)
  | 0, _, _, _ => none
  | fuel + 1, column, items, c => do
    let after : Cursor := ⟨c.column + 1, c.rest.drop 1⟩
    let (crossed, next) := after.gap
    let (item, after) ←
      if next.rest = [] ∨ (crossed ∧ next.column ≤ column) then some (plainScalar [], after)
      else blockNode fuel (column + 1) next
    let items := items ++ [item]
    let (crossed, next) := after.gap
    if next.rest = [] then some (.list items, after)
    else if !crossed ∨ column < next.column then none
    else if next.column = column ∧ next.atEntry then blockItems fuel column items next
    else some (.list items, after)

end

end ScopedCommands.Yaml
