import Mathlib.Data.List.Chain
import ScopedCommands.Reference

namespace ScopedCommands

/-- What a text consists of once its escapes are undone. -/
abbrev Reference.Mark := Char ⊕ String × Nat

def Reference.Item.mark : Item → Mark
  | .escaped c => .inl c
  | .plain c => .inl c
  | .reference name position => .inr (String.ofList name, position)

def Segment.marks : Segment → List Reference.Mark
  | .literal text => text.toList.map .inl
  | .reference name position => [.inr (name, position)]

def Segment.IsLiteral : Segment → Prop
  | .literal _ => True
  | .reference _ _ => False

namespace Reference

/-- Literals are not empty and no two of them are neighbours. -/
structure Tidy (segments : List Segment) : Prop where
  nonempty : .literal "" ∉ segments
  apart : segments.IsChain fun a b => ¬ (a.IsLiteral ∧ b.IsLiteral)

/-- The same characters and references in order, each run of characters in one literal. -/
structure Merges (items : List Item) (segments : List Segment) : Prop where
  marks : segments.flatMap Segment.marks = items.map Item.mark
  tidy : Tidy segments

def ofMarks : List Mark → List Segment
  | [] => []
  | .inl c :: rest => prepend c (ofMarks rest)
  | .inr (name, position) :: rest => .reference name position :: ofMarks rest

theorem prepend_of_open {segments : List Segment} (c : Char)
    (opens : ∀ first ∈ segments.head?, ¬ first.IsLiteral) :
    prepend c segments = .literal (String.ofList [c]) :: segments := by
  unfold prepend
  split
  next text rest => exact absurd trivial (opens (.literal text) rfl)
  next => rfl

theorem ofMarks_chars {segments : List Segment} {marks : List Mark}
    (rest : ofMarks marks = segments) (opens : ∀ first ∈ segments.head?, ¬ first.IsLiteral)
    (c : Char) (cs : List Char) :
    ofMarks ((c :: cs).map .inl ++ marks) = .literal (String.ofList (c :: cs)) :: segments := by
  induction cs generalizing c with
  | nil =>
    rw [List.map_singleton, List.singleton_append, ofMarks, rest, prepend_of_open c opens]
  | cons d cs ih =>
    rw [List.map_cons, List.cons_append, ofMarks, ih, prepend, ← String.ofList_append]
    rfl

theorem Tidy.tail {first : Segment} {rest : List Segment} (h : Tidy (first :: rest)) :
    Tidy rest :=
  ⟨fun member => h.nonempty (List.mem_cons_of_mem _ member), h.apart.tail⟩

theorem Tidy.opens {text : String} {rest : List Segment} (h : Tidy (.literal text :: rest)) :
    ∀ first ∈ rest.head?, ¬ first.IsLiteral := by
  intro first member literal
  obtain ⟨later, rfl⟩ := List.head?_eq_some_iff.1 member
  exact (List.isChain_cons_cons.1 h.apart).1 ⟨trivial, literal⟩

theorem Tidy.ofMarks_marks {segments : List Segment} (h : Tidy segments) :
    ofMarks (segments.flatMap Segment.marks) = segments := by
  induction segments with
  | nil => rfl
  | cons first rest ih =>
    rw [List.flatMap_cons]
    cases first with
    | reference name position => exact congrArg _ (ih h.tail)
    | literal text =>
      obtain ⟨c, cs, written⟩ : ∃ c cs, text.toList = c :: cs := by
        refine List.exists_cons_of_ne_nil fun none => h.nonempty ?_
        rw [String.toList_eq_nil_iff.1 none]
        exact List.mem_cons_self
      rw [Segment.marks, written, ofMarks_chars (ih h.tail) h.opens, ← written, String.ofList_toList]

theorem merge_eq (items : List Item) : merge items = ofMarks (items.map Item.mark) := by
  induction items with
  | nil => rfl
  | cons first rest ih => cases first <;> simp only [merge, ih, List.map_cons, Item.mark, ofMarks]

theorem marks_prepend (c : Char) (segments : List Segment) :
    (prepend c segments).flatMap Segment.marks = .inl c :: segments.flatMap Segment.marks := by
  unfold prepend
  split
  next => simp [Segment.marks]
  next => simp [Segment.marks]

theorem Tidy.literal {text : String} {rest : List Segment} (h : Tidy rest) (some : text ≠ "")
    (opens : ∀ first ∈ rest.head?, ¬ first.IsLiteral) : Tidy (.literal text :: rest) where
  nonempty := by
    rw [List.mem_cons, not_or]
    refine ⟨fun empty => some ?_, h.nonempty⟩
    cases empty
    rfl
  apart := List.isChain_cons.2 ⟨fun first member both => opens first member both.2, h.apart⟩

theorem Tidy.reference {rest : List Segment} (h : Tidy rest) (name : String) (position : Nat) :
    Tidy (.reference name position :: rest) where
  nonempty := by
    rw [List.mem_cons, not_or]
    exact ⟨nofun, h.nonempty⟩
  apart := List.isChain_cons.2 ⟨fun _ _ both => both.1, h.apart⟩

theorem Tidy.prepend {segments : List Segment} (h : Tidy segments) (c : Char) :
    Tidy (prepend c segments) := by
  unfold Reference.prepend
  split
  next text rest => exact h.tail.literal (by simp) h.opens
  next segments other =>
    refine h.literal (by simp) fun first member literal => ?_
    obtain ⟨rest, rfl⟩ := List.head?_eq_some_iff.1 member
    cases first with
    | literal text => exact other text rest rfl
    | reference name position => exact literal

theorem merges_merge (items : List Item) : Merges items (merge items) := by
  induction items with
  | nil => exact ⟨rfl, List.not_mem_nil, .nil⟩
  | cons first rest ih =>
    cases first with
    | escaped c => exact ⟨by rw [merge, marks_prepend, ih.marks]; rfl, ih.tidy.prepend c⟩
    | plain c => exact ⟨by rw [merge, marks_prepend, ih.marks]; rfl, ih.tidy.prepend c⟩
    | reference name position =>
      refine ⟨?_, ih.tidy.reference _ position⟩
      rw [merge, List.flatMap_cons, ih.marks]
      rfl

theorem merges_iff {items : List Item} {segments : List Segment} :
    Merges items segments ↔ segments = merge items := by
  constructor
  · intro h
    rw [merge_eq, ← h.marks, h.tidy.ofMarks_marks]
  · rintro rfl
    exact merges_merge items

end Reference
end ScopedCommands
