import ScopedCommands.Proofs.Placeholder.Grammar

namespace ScopedCommands.Placeholder

def Item.placeholder? : Item → Option Placeholder
  | .placeholder p => some p
  | .dollar | .pair | .plain _ => none

def Item.shown (text : Placeholder → String) : Item → List Char
  | .dollar => ['$']
  | .pair => ['\\', '\\']
  | .plain c => [c]
  | .placeholder p => (text p).toList

theorem allOf_prepend (cs : List Char) (parts : List FieldPart) :
    allOf (prepend cs parts) = allOf parts := by
  unfold prepend
  split <;> rfl

theorem allOf_merge (items : List Item) : allOf (merge items) = items.filterMap Item.placeholder? := by
  induction items with
  | nil => rfl
  | cons first rest ih =>
    cases first with
    | placeholder p => exact congrArg (p :: ·) ih
    | _ => exact (allOf_prepend _ _).trans ih

theorem eq_of_sole {parts : List FieldPart} {p : Placeholder} (alone : sole parts = some p) :
    parts = [.placeholder p] := by
  unfold sole at alone
  split at alone
  · cases alone
    rfl
  · cases alone

theorem allOf_of_sole {parts : List FieldPart} {p : Placeholder} (alone : sole parts = some p) :
    allOf parts = [p] := by
  rw [eq_of_sole alone]
  rfl

theorem firstSpread_eq_none_iff {parts : List FieldPart} :
    firstSpread parts = none ↔ ∀ p ∈ allOf parts, p.kind ≠ .spread := by
  simp [firstSpread, List.find?_eq_none]

theorem spells_plain {cs : List Char} (free : ∀ c ∈ cs, c ≠ '\\' ∧ c ≠ '$') :
    Spells cs (cs.map .plain) := by
  induction cs with
  | nil => exact .nil
  | cons c rest ih =>
    obtain ⟨⟨backslash, dollar⟩, later⟩ := List.forall_mem_cons.1 free
    exact .cons (.plain rest (fun escape => backslash escape.1) fun opened => dollar opened.1)
      (ih later)

theorem Spells.shown_subset {cs : List Char} {items : List Item} (h : Spells cs items)
    (none : items.filterMap Item.placeholder? = []) (text : Placeholder → String) :
    items.flatMap (Item.shown text) ⊆ cs := by
  induction h with
  | nil => exact List.Subset.refl []
  | @cons _ rest first items here _ ih =>
    rw [List.flatMap_cons]
    cases here with
    | placeholder => cases none
    | dollar | pair | plain =>
      have later := ih none
      exact List.append_subset.2 ⟨by simp [Item.shown], fun c member => by simp [later member]⟩

/-- A text without placeholders stands for itself, or both the text and what it stands for have a
sign in them that is in no name. -/
theorem Spells.shown_eq_or {cs : List Char} {items : List Item} (h : Spells cs items)
    (none : items.filterMap Item.placeholder? = []) (text : Placeholder → String) :
    items.flatMap (Item.shown text) = cs ∨
      (∃ c ∈ cs, Name.isNameChar c = false) ∧
      ∃ c ∈ items.flatMap (Item.shown text), Name.isNameChar c = false := by
  induction h with
  | nil => exact .inl rfl
  | @cons _ rest first items here _ ih =>
    rw [List.flatMap_cons]
    cases here with
    | placeholder => cases none
    | dollar => exact .inr ⟨⟨'\\', List.mem_cons_self, rfl⟩, '$', List.mem_cons_self, rfl⟩
    | pair => exact .inr ⟨⟨'\\', List.mem_cons_self, rfl⟩, '\\', List.mem_cons_self, rfl⟩
    | @plain c =>
      rcases ih none with same | ⟨⟨d, inside, foreign⟩, e, shown, other⟩
      · exact .inl (congrArg (c :: ·) same)
      · exact .inr ⟨⟨d, List.mem_cons_of_mem c inside, foreign⟩,
          e, List.mem_cons_of_mem c shown, other⟩

end ScopedCommands.Placeholder
