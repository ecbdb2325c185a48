import ScopedCommands.Yaml.Scalar

namespace ScopedCommands.Yaml

/-- A scalar between brackets. Quoted ones are always texts. -/
def flowScalar (c : Cursor) : Option (Document × Cursor) :=
  match c.rest with
  | '"' :: _ | '\'' :: _ => (quoted c).map fun r => (.text (String.ofList r.1), r.2)
  | _ => (plain true 0 c).map fun r => (plainScalar r.1, r.2)

def keyText : Document → Option String
  | .scalar _ text => some text
  | _ => none

mutual

def flowNode : Nat → Cursor → Option (Document × Cursor)
  | 0, _ => none
  | fuel + 1, c =>
    match c.rest with
    | '[' :: rest => flowItems fuel [] (Cursor.flowGap ⟨c.column + 1, rest⟩)
    | '{' :: rest => flowEntries fuel [] (Cursor.flowGap ⟨c.column + 1, rest⟩)
    | _ => flowScalar c

def flowValue : Nat → Cursor → Option (Document × Cursor)
  | 0, _ => none
  | fuel + 1, c =>
    match c.rest with
    | ',' :: _ | ']' :: _ | '}' :: _ => some (plainScalar [], c)
    | _ => flowNode fuel c

def flowItems : Nat → List Document → Cursor → Option (Document × Cursor)
  | 0, _, _ => none
  | fuel + 1, items, c =>
    match c.rest with
    | ']' :: rest => some (.list items, ⟨c.column + 1, rest⟩)
    | _ => do
      let (item, after) ← flowNode fuel c
      let next := after.flowGap
      let (item, next) ← match next.rest with
        | ':' :: rest => do
          let key ← keyText item
          guard (!c.crossesLine next)
          let (value, after) ← flowValue fuel (Cursor.flowGap ⟨next.column + 1, rest⟩)
          pure (.map [(key, value)], after.flowGap)
        | _ => pure (item, next)
      match next.rest with
      | ',' :: rest => flowItems fuel (items ++ [item]) (Cursor.flowGap ⟨next.column + 1, rest⟩)
      | ']' :: rest => some (.list (items ++ [item]), ⟨next.column + 1, rest⟩)
      | _ => none

def flowEntries : Nat → Document.Entries → Cursor → Option (Document × Cursor)
  | 0, _, _ => none
  | fuel + 1, entries, c =>
    match c.rest with
    | '}' :: rest => some (.map entries, ⟨c.column + 1, rest⟩)
    | _ => do
      let (keyNode, after) ← flowNode fuel c
      let key ← keyText keyNode
      let next := after.flowGap
      let (value, next) ← match next.rest with
        | ':' :: rest => do
          guard (!c.crossesLine next)
          let (value, after) ← flowValue fuel (Cursor.flowGap ⟨next.column + 1, rest⟩)
          pure (value, after.flowGap)
        | _ => pure (plainScalar [], next)
      match next.rest with
      | ',' :: rest =>
        flowEntries fuel (entries ++ [(key, value)]) (Cursor.flowGap ⟨next.column + 1, rest⟩)
      | '}' :: rest => some (.map (entries ++ [(key, value)]), ⟨next.column + 1, rest⟩)
      | _ => none

end

end ScopedCommands.Yaml
