import ScopedCommands.Proofs.Placeholder.Parts
import ScopedCommands.Template.Bind

namespace ScopedCommands

namespace Placeholder

def wants (p : Placeholder) : ParameterKind := if p.kind = .spread then .list else .text

variable (params : Dict Parameter)

def text? (p : Placeholder) : Option String :=
  match params.get? p.name with
  | some (.text value) => some value
  | _ => none

def value (p : Placeholder) : String := (p.text? params).getD ""

def items (p : Placeholder) : List String :=
  match params.get? p.name with
  | some (.list items) => items
  | _ => []

/-- The values of a field that is this placeholder; an optional one without text drops the field. -/
def values (p : Placeholder) : List String :=
  match p.kind with
  | .required => [p.value params]
  | .optional => if p.value params = "" then [] else [p.value params]
  | .spread => p.items params

theorem toList_head?_values {p : Placeholder} (scalar : p.kind ≠ .spread) :
    (p.values params).head?.toList = p.values params := by
  unfold values
  cases kind : p.kind with
  | required => rfl
  | optional =>
    dsimp only
    split <;> rfl
  | spread => exact absurd kind scalar

theorem getD_head?_values {p : Placeholder} (scalar : p.kind ≠ .spread) :
    (p.values params).head?.getD "" = p.value params := by
  unfold values
  cases kind : p.kind with
  | required => rfl
  | optional =>
    dsimp only
    split
    next empty => exact empty.symm
    next => rfl
  | spread => exact absurd kind scalar

theorem eq_value_of_mem_values {p : Placeholder} {value : String} (scalar : p.kind ≠ .spread)
    (member : value ∈ p.values params) : value = p.value params := by
  unfold values at member
  cases kind : p.kind with
  | required =>
    rw [kind] at member
    exact List.mem_singleton.1 member
  | optional =>
    rw [kind] at member
    dsimp only at member
    split at member
    · cases member
    · exact List.mem_singleton.1 member
  | spread => exact absurd kind scalar

end Placeholder

namespace FieldPart

variable (params : Dict Parameter)

def filled : FieldPart → String
  | .text t => t
  | .placeholder p => p.value params

def fill (parts : List FieldPart) : String := String.join (parts.map (filled params))

def values (parts : List FieldPart) : List String :=
  match Placeholder.sole parts with
  | some p => p.values params
  | none => [fill params parts]

variable {params}

theorem fill_cons (first : FieldPart) (rest : List FieldPart) :
    fill params (first :: rest) = first.filled params ++ fill params rest :=
  String.join_cons

theorem getD_head?_values {parts : List FieldPart}
    (scalars : ∀ p ∈ Placeholder.allOf parts, p.kind ≠ .spread) :
    (values params parts).head?.getD "" = fill params parts := by
  unfold values
  cases alone : Placeholder.sole parts with
  | none => rfl
  | some p =>
    have scalar : p.kind ≠ .spread := scalars p (by simp [Placeholder.allOf_of_sole alone])
    rw [Placeholder.eq_of_sole alone]
    exact (Placeholder.getD_head?_values params scalar).trans
      ((fill_cons _ _).trans String.append_empty).symm

theorem eq_fill_of_mem_values {parts : List FieldPart} {value : String}
    (scalars : ∀ p ∈ Placeholder.allOf parts, p.kind ≠ .spread)
    (member : value ∈ values params parts) : value = fill params parts := by
  unfold values at member
  cases alone : Placeholder.sole parts with
  | none =>
    rw [alone] at member
    exact List.mem_singleton.1 member
  | some p =>
    rw [alone] at member
    have scalar : p.kind ≠ .spread := scalars p (by simp [Placeholder.allOf_of_sole alone])
    rw [Placeholder.eq_of_sole alone, fill_cons, filled,
      ← Placeholder.eq_value_of_mem_values params scalar member]
    exact String.append_empty.symm

theorem fill_prepend (cs : List Char) (parts : List FieldPart) :
    fill params (Placeholder.prepend cs parts) = String.ofList cs ++ fill params parts := by
  unfold Placeholder.prepend
  split
  · rw [fill_cons, fill_cons, filled, filled, String.append_assoc]
  · rw [fill_cons, filled]

theorem fill_merge (items : List Placeholder.Item) :
    fill params (Placeholder.merge items) =
      String.ofList (items.flatMap (Placeholder.Item.shown (·.value params))) := by
  induction items with
  | nil => rfl
  | cons first rest ih =>
    rw [List.flatMap_cons, String.ofList_append, ← ih]
    cases first with
    | placeholder p =>
      rw [Placeholder.merge, fill_cons, Placeholder.Item.shown, String.ofList_toList]
      rfl
    | _ => exact fill_prepend _ _

end FieldPart

namespace Template

def parts (raw : String) : List FieldPart := (Placeholder.parse raw).toOption.getD []

def placeholdersIn (raws : List String) : List Placeholder :=
  raws.flatMap fun raw => Placeholder.allOf (parts raw)

def placeholders (t : Template) : List Placeholder :=
  placeholdersIn [t.cmd] ++ placeholdersIn t.args ++ placeholdersIn t.env
    ++ placeholdersIn t.workdir.toList

variable (params : Dict Parameter)

def valuesOf (raws : List String) : List String :=
  raws.flatMap fun raw => FieldPart.values params (parts raw)

variable {params}

theorem parts_of_parseField {raw : String} {ps : List FieldPart}
    (read : parseField raw = .ok ps) : parts raw = ps := by
  rw [parts, Outcome.mapError_eq_ok.1 read]
  rfl

theorem placeholdersIn_cons (raw : String) (rest : List String) :
    placeholdersIn (raw :: rest) = Placeholder.allOf (parts raw) ++ placeholdersIn rest :=
  List.flatMap_cons

theorem placeholdersIn_singleton (raw : String) :
    placeholdersIn [raw] = Placeholder.allOf (parts raw) :=
  List.flatMap_singleton _ _

theorem valuesOf_cons (raw : String) (rest : List String) :
    valuesOf params (raw :: rest) = FieldPart.values params (parts raw) ++ valuesOf params rest :=
  List.flatMap_cons

theorem valuesOf_singleton (raw : String) :
    valuesOf params [raw] = FieldPart.values params (parts raw) :=
  List.flatMap_singleton _ _

variable (params)

def filled (name : String) (t : Template) : BoundCommand where
  template := name
  cmd := FieldPart.fill params (parts t.cmd)
  args := valuesOf params t.args
  env := valuesOf params t.env
  workdir := (valuesOf params t.workdir.toList).head?
  riskLevel := t.riskLevel
  unusedParams := params.keys.filter fun name => t.placeholders.all (·.name ≠ name)

end Template
end ScopedCommands
