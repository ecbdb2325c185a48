import ScopedCommands.Text.Quoted

/-!
Names of variables, env keys, parameters and templates: a letter or `_`, then letters, digits and
`_`, all ASCII. Names that start with two underscores belong to the automatic variables.
-/
namespace ScopedCommands

inductive NameFault
  | start (c : Char)
  | inside (c : Char)
deriving DecidableEq

inductive NameError
  | empty
  | invalid (name : String) (fault : NameFault)
  | reserved (name : String)
deriving DecidableEq

def NameFault.message : NameFault → String
  | .start c => s!"must start with A-Z, a-z or _ (got {Text.quoteChar c})"
  | .inside c => s!"invalid character {Text.quoteChar c}"

def NameError.message : NameError → String
  | .empty => "Variable name cannot be empty"
  | .invalid name fault => s!"Invalid variable name {Text.quote name}: {fault.message}"
  | .reserved name => s!"Variable name {Text.quote name} is reserved (starts with '__')"

namespace Name

def isNameChar (c : Char) : Bool := c.isAlphanum || c == '_'

def isNameStart (c : Char) : Bool := c.isAlpha || c == '_'

def isReserved (name : String) : Bool := ['_', '_'].isPrefixOf name.toList

def checkSyntax (name : String) : Except NameError Unit :=
  match name.toList with
  | [] => .error .empty
  | c :: rest =>
    if isNameStart c then
      match rest.find? (fun d => !isNameChar d) with
      | none => .ok ()
      | some d => .error (.invalid name (.inside d))
    else .error (.invalid name (.start c))

def check (name : String) : Except NameError Unit :=
  match checkSyntax name with
  | .error e => .error e
  | .ok () => if isReserved name then .error (.reserved name) else .ok ()

def WellFormed (name : String) : Prop :=
  ∃ c rest, name.toList = c :: rest ∧ isNameStart c = true ∧ ∀ d ∈ rest, isNameChar d = true

theorem checkSyntax_eq_ok_iff (name : String) : checkSyntax name = .ok () ↔ WellFormed name := by
  unfold checkSyntax WellFormed
  split
  next h => simp [h]
  next c rest h =>
    by_cases hc : isNameStart c = true
    · simp only [hc, if_true]
      split
      next none => exact ⟨fun _ => ⟨c, rest, h, hc, by simpa using none⟩, fun _ => rfl⟩
      next d found =>
        have bad := List.find?_some found
        have member := List.mem_of_find?_eq_some found
        refine ⟨nofun, ?_⟩
        rintro ⟨c', rest', eq, -, all⟩
        obtain ⟨rfl, rfl⟩ := List.cons.inj (h.symm.trans eq)
        simp [all d member] at bad
    · simp [hc, h]

end Name
end ScopedCommands
