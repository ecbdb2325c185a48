import ScopedCommands.Proofs.Expansion.Grounded
import ScopedCommands.Proofs.Reference.Joined

namespace ScopedCommands

open Outcome

namespace Expansion

variable {value : String → Except ExpansionError String}

def spell (value : String → Except ExpansionError String) :
    List (Char ⊕ String) → Except ExpansionError String
  | [] => .ok ""
  | .inl c :: rest => (spell value rest).map (String.ofList [c] ++ ·)
  | .inr name :: rest => value name >>= fun v => (spell value rest).map (v ++ ·)

theorem join_prepend (c : Char) (segments : List Segment) :
    join value (Reference.prepend c segments) =
      (join value segments).map (String.ofList [c] ++ ·) := by
  unfold Reference.prepend
  split
  next text rest =>
    rw [join, join]
    cases join value rest with
    | error e => rfl
    | ok tail => exact congrArg Except.ok String.append_assoc
  next => rfl

theorem join_merge (items : List Reference.Item) :
    join value (Reference.merge items) = spell value (items.map Reference.Item.sign) := by
  induction items with
  | nil => rfl
  | cons first rest ih =>
    cases first with
    | escaped c => rw [Reference.merge, join_prepend, ih]; rfl
    | plain c => rw [Reference.merge, join_prepend, ih]; rfl
    | reference name position => rw [Reference.merge, join, ih]; rfl

theorem map_append_map (x : Except ExpansionError String) (v w : String) :
    (x.map (w ++ ·)).map (v ++ ·) = x.map (v ++ w ++ ·) := by
  cases x with
  | error e => rfl
  | ok tail => exact congrArg Except.ok String.append_assoc.symm

theorem spell_append (first second : List (Char ⊕ String)) :
    spell value (first ++ second) =
      spell value first >>= fun v => (spell value second).map (v ++ ·) := by
  induction first with
  | nil =>
    change spell value second = (spell value second).map ("" ++ ·)
    simp only [String.empty_append]
    cases spell value second <;> rfl
  | cons sign rest ih =>
    cases sign with
    | inl c =>
      rw [List.cons_append, spell, spell, ih]
      cases spell value rest with
      | error e => rfl
      | ok v => exact map_append_map _ _ v
    | inr name =>
      rw [List.cons_append, spell, spell, ih]
      cases value name with
      | error e => rfl
      | ok own =>
        cases spell value rest with
        | error e => rfl
        | ok v => exact map_append_map _ own v

end Expansion

open Expansion

variable {lookup : Lookup} {ctx : Context}

theorem expandIn_of_spells {raw : String} {items : List Reference.Item}
    (spelled : Reference.Spells [] raw.toList items []) :
    expandIn ctx lookup raw = spell (valueIn ctx lookup) (items.map Reference.Item.sign) := by
  have read := Reference.parse_eq_ok_iff_spells.2 ⟨items, spelled, Reference.merges_merge items⟩
  rw [expandIn_eq, read, ← join_merge]

namespace Reference

theorem Readable.append {a b : String} (first : Readable a) (second : Readable b)
    (clear : ¬ Seam a b) : Readable (a ++ b) := by
  obtain ⟨items, spelled⟩ := readable_iff.1 first
  obtain ⟨others, also⟩ := readable_iff.1 second
  obtain ⟨all, whole, _⟩ := spells_append clear spelled also
  exact readable_iff.2 ⟨all, whole⟩

/-- Texts that can be read one by one, no two of which meet in a seam. -/
structure Composable (pieces : List String) : Prop where
  readable : ∀ piece ∈ pieces, Readable piece
  seamless : pieces.IsChain fun a b => ¬ Seam a b

instance (pieces : List String) : Decidable (Composable pieces) :=
  decidable_of_iff ((∀ piece ∈ pieces, Readable piece) ∧ pieces.IsChain fun a b => ¬ Seam a b)
    ⟨fun h => ⟨h.1, h.2⟩, fun h => ⟨h.readable, h.seamless⟩⟩

theorem Composable.tail {first : String} {rest : List String} (h : Composable (first :: rest)) :
    Composable rest :=
  ⟨fun piece member => h.readable piece (List.mem_cons_of_mem first member), h.seamless.tail⟩

theorem head?_join (pieces : List String) :
    (String.join pieces).toList.head? =
      (pieces.filter (· ≠ "")).head?.bind fun first => first.toList.head? := by
  induction pieces with
  | nil => rfl
  | cons piece rest ih =>
    rw [String.join_cons, String.toList_append, List.head?_append, ih]
    by_cases empty : piece = ""
    · simp [empty]
    · obtain ⟨c, cs, written⟩ : ∃ c cs, piece.toList = c :: cs :=
        List.exists_cons_of_ne_nil fun none => empty (String.toList_eq_nil_iff.1 none)
      rw [List.filter_cons_of_pos (by simpa using empty), List.head?_cons, Option.bind_some, written]
      rfl

theorem Composable.clear {first : String} {rest : List String}
    (h : Composable (first :: rest.filter (· ≠ ""))) : ¬ Seam first (String.join rest) := by
  intro seam
  have brace := seam.brace
  rw [head?_join] at brace
  obtain ⟨next, listed, opens⟩ := Option.bind_eq_some_iff.1 brace
  exact (List.isChain_cons.1 h.seamless).1 next listed ⟨seam.percent, seam.unescaped, opens⟩

end Reference

open Reference

theorem expandIn_append {a b : String} (first : Readable a) (second : Readable b)
    (clear : ¬ Seam a b) :
    expandIn ctx lookup (a ++ b) =
      expandIn ctx lookup a >>= fun v => (expandIn ctx lookup b).map (v ++ ·) := by
  obtain ⟨items, spelled⟩ := readable_iff.1 first
  obtain ⟨others, also⟩ := readable_iff.1 second
  obtain ⟨all, whole, signs⟩ := spells_append clear spelled also
  rw [expandIn_of_spells whole, expandIn_of_spells spelled, expandIn_of_spells also, signs,
    spell_append]

theorem spells_empty : Spells [] "".toList [] [] := .stop [] []

theorem readable_empty : Readable "" := readable_iff.2 ⟨[], spells_empty⟩

theorem expandIn_empty : expandIn ctx lookup "" = .ok "" := expandIn_of_spells spells_empty

/-- Empty pieces do not count: the one before them meets the one behind them. -/
theorem expandIn_join {pieces : List String} (h : Composable (pieces.filter (· ≠ ""))) :
    Readable (String.join pieces) ∧
      expandIn ctx lookup (String.join pieces) =
        (pieces.mapM (expandIn ctx lookup)).map String.join := by
  induction pieces with
  | nil => exact ⟨readable_empty, expandIn_empty⟩
  | cons piece rest ih =>
    rw [String.join_cons, List.mapM_cons]
    by_cases empty : piece = ""
    · subst empty
      obtain ⟨read, expanded⟩ := ih h
      rw [String.empty_append]
      refine ⟨read, ?_⟩
      rw [expanded, expandIn_empty]
      cases rest.mapM (expandIn ctx lookup) with
      | error e => rfl
      | ok values => exact congrArg Except.ok (String.join_cons.trans String.empty_append).symm
    · rw [List.filter_cons_of_pos (by simpa using empty)] at h
      obtain ⟨read, expanded⟩ := ih h.tail
      have own := h.readable piece List.mem_cons_self
      refine ⟨own.append read h.clear, ?_⟩
      rw [expandIn_append own read h.clear, expanded]
      cases expandIn ctx lookup piece with
      | error e => rfl
      | ok v =>
        cases rest.mapM (expandIn ctx lookup) with
        | error e => rfl
        | ok values => exact congrArg Except.ok String.join_cons.symm

end ScopedCommands
