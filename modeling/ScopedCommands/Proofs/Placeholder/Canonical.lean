import Mathlib.Data.List.Chain
import ScopedCommands.Proofs.Placeholder.Parts

/-!
The parts of a field and its canonical form. Parts are the items of a field with every run of
characters in one text. Written back with each dollar sign escaped they may be another text, with
other items, but no backslash comes to stand before a sign that it did not stand before: the text is
read as the same parts.
-/
namespace ScopedCommands

open Outcome

def FieldPart.IsText : FieldPart → Prop
  | .text _ => True
  | .placeholder _ => False

def FieldPart.marks : FieldPart → List (Char ⊕ Placeholder)
  | .text t => t.toList.map .inl
  | .placeholder p => [.inr p]

namespace Placeholder

def escapeDollars (text : String) : String :=
  String.ofList (text.toList.flatMap fun c => if c = '$' then ['\\', '$'] else [c])

def renderPart : FieldPart → String
  | .text t => escapeDollars t
  | .placeholder p => p.text

def render (parts : List FieldPart) : String := String.join (parts.map renderPart)

def Item.marks : Item → List (Char ⊕ Placeholder)
  | .dollar => [.inl '$']
  | .pair => [.inl '\\', .inl '\\']
  | .plain c => [.inl c]
  | .placeholder p => [.inr p]

/-- The same characters and placeholders in order, each run of characters in one text. -/
structure Merges (items : List Item) (parts : List FieldPart) : Prop where
  marks : parts.flatMap FieldPart.marks = items.flatMap Item.marks
  nonempty : .text "" ∉ parts
  apart : parts.IsChain fun a b => ¬ (a.IsText ∧ b.IsText)

variable {items : List Item} {parts : List FieldPart} {field : String}

theorem Merges.prepend (h : Merges items parts) {first : Item} {cs : List Char} (some : cs ≠ [])
    (shows : first.marks = cs.map .inl) : Merges (first :: items) (prepend cs parts) := by
  obtain ⟨marks, nonempty, apart⟩ := h
  unfold Placeholder.prepend
  split
  next t rest =>
    refine ⟨?_, ?_, ?_⟩
    · rw [List.flatMap_cons (f := Item.marks), shows, ← marks]
      simp [FieldPart.marks]
    · simp_all
    · rw [List.isChain_cons] at apart ⊢
      exact apart
  next other =>
    refine ⟨?_, ?_, ?_⟩
    · rw [List.flatMap_cons, List.flatMap_cons, shows, marks]
      simp [FieldPart.marks]
    · simp_all
    · refine List.isChain_cons.2 ⟨fun next member both => ?_, apart⟩
      obtain ⟨rest, rfl⟩ := List.head?_eq_some_iff.1 member
      cases next with
      | text t => exact other t rest rfl
      | placeholder p => exact both.2

theorem merges_merge (items : List Item) : Merges items (merge items) := by
  induction items with
  | nil => exact ⟨rfl, List.not_mem_nil, .nil⟩
  | cons first rest ih =>
    cases first with
    | dollar | pair | plain c => exact ih.prepend (List.cons_ne_nil _ _) rfl
    | placeholder p =>
      refine ⟨?_, ?_, ?_⟩
      · rw [merge, List.flatMap_cons, ih.marks]
        rfl
      · simpa [merge] using ih.nonempty
      · exact List.isChain_cons.2 ⟨fun _ _ both => both.1, ih.apart⟩

theorem Item.marks_ne_nil (item : Item) : item.marks ≠ [] := by
  cases item <;> exact List.cons_ne_nil _ _

theorem eq_singleton_of_marks {p : Placeholder} (h : items.flatMap Item.marks = [.inr p]) :
    items = [.placeholder p] := by
  cases items with
  | nil => cases h
  | cons first rest =>
    cases first with
    | dollar | pair | plain c => simp [Item.marks] at h
    | placeholder q =>
      obtain ⟨rfl, none⟩ : q = p ∧ ∀ next ∈ rest, next.marks = [] := by simpa [Item.marks] using h
      cases rest with
      | nil => rfl
      | cons next others => exact absurd (none next List.mem_cons_self) next.marks_ne_nil

theorem toList_text (p : Placeholder) :
    p.text.toList = '$' :: '{' :: (p.kind.mark ++ p.name.toList ++ ['}']) := by
  simp [text]

theorem spells_text {p : Placeholder} (word : Name.WellFormed p.name) :
    Spells p.text.toList [.placeholder p] := by
  rw [toList_text]
  exact .cons (.placeholder [] word) .nil

structure Spans (p : Placeholder) (field : String) : Prop where
  word : Name.WellFormed p.name
  written : field = p.text

theorem Spans.parse_eq {p : Placeholder} (h : p.Spans field) :
    parse field = .ok [.placeholder p] := by
  obtain ⟨word, rfl⟩ := h
  exact parse_eq_ok_iff.2 ⟨_, spells_text word, rfl⟩

theorem sole_eq_some_iff {p : Placeholder} (read : parse field = .ok parts) :
    sole parts = some p ↔ p.Spans field := by
  obtain ⟨items, spelled, rfl⟩ := parse_eq_ok_iff.1 read
  constructor
  · intro alone
    have marks := (merges_merge items).marks
    rw [eq_of_sole alone] at marks
    obtain rfl := eq_singleton_of_marks marks.symm
    generalize written : field.toList = text at spelled
    cases spelled with
    | cons here later =>
      cases later
      cases here with
      | placeholder _ word =>
        refine ⟨word, String.toList_inj.1 ?_⟩
        rw [written, toList_text]
  · intro spans
    rw [Except.ok.inj (read.symm.trans spans.parse_eq)]
    rfl

def Item.written : Item → List Char
  | .dollar => ['\\', '$']
  | .pair => ['\\', '\\']
  | .plain c => [c]
  | .placeholder p => p.text.toList

def Item.canonical : Item → Item
  | .plain c => if c = '$' then .dollar else .plain c
  | item => item

theorem merge_canonical (items : List Item) : merge (items.map Item.canonical) = merge items := by
  induction items with
  | nil => rfl
  | cons first rest ih =>
    cases first with
    | dollar | pair | placeholder => simp [Item.canonical, merge, ih]
    | plain c => by_cases dollar : c = '$' <;> simp [Item.canonical, dollar, merge, ih]

theorem toList_render_prepend (cs : List Char) (parts : List FieldPart) :
    (render (prepend cs parts)).toList =
      (escapeDollars (String.ofList cs)).toList ++ (render parts).toList := by
  unfold prepend
  split <;> simp [render, renderPart, escapeDollars]

@[simp] theorem render_cons (first : FieldPart) (rest : List FieldPart) :
    render (first :: rest) = renderPart first ++ render rest :=
  String.join_cons

theorem toList_render_merge (items : List Item) :
    (render (merge items)).toList = (items.map Item.canonical).flatMap Item.written := by
  induction items with
  | nil => rfl
  | cons first rest ih =>
    cases first with
    | dollar | pair =>
      simp [merge, toList_render_prepend, ih, escapeDollars, Item.canonical, Item.written]
    | placeholder p => simp [merge, ih, renderPart, Item.canonical, Item.written]
    | plain c =>
      by_cases dollar : c = '$' <;>
        simp [merge, toList_render_prepend, ih, escapeDollars, Item.canonical, Item.written, dollar]

theorem Spells.head?_canonical {text : List Char} (h : Spells text items)
    (dollar : text.head? ≠ some '$') (backslash : text.head? ≠ some '\\') :
    ((items.map Item.canonical).flatMap Item.written).head? = text.head? := by
  cases h with
  | nil => rfl
  | cons here _ =>
    cases here with
    | dollar | pair => exact absurd rfl backslash
    | placeholder => exact absurd rfl dollar
    | @plain c _ _ _ =>
      have other : c ≠ '$' := fun same => dollar (congrArg some same)
      simp [Item.canonical, other, Item.written]

theorem Spells.canonical {text : List Char} (h : Spells text items) :
    Spells ((items.map Item.canonical).flatMap Item.written) (items.map Item.canonical) := by
  induction h with
  | nil => exact .nil
  | @cons _ rest first items here later ih =>
    rw [List.map_cons, List.flatMap_cons]
    cases here with
    | dollar => exact .cons (.dollar _) ih
    | pair => exact .cons (.pair _) ih
    | @placeholder p _ word =>
      have same : Item.canonical (.placeholder p) = .placeholder p := rfl
      rw [same, Item.written, toList_text]
      refine .cons ?_ ih
      simpa using Begins.placeholder _ word
    | @plain c _ unescaping unopened =>
      by_cases dollar : c = '$'
      · subst dollar
        exact .cons (.dollar _) ih
      · rw [Item.canonical, if_neg dollar]
        let tail := (items.map Item.canonical).flatMap Item.written
        refine .cons (.plain tail ?_ fun opened => dollar opened.1) ih
        -- What follows a backslash that stands for itself is still no dollar sign or backslash.
        rintro ⟨rfl, next⟩
        rw [not_and, not_or] at unescaping
        obtain ⟨noDollar, noBackslash⟩ := unescaping rfl
        rw [later.head?_canonical noDollar noBackslash] at next
        exact next.elim noDollar noBackslash

theorem parse_render_of_parse (read : parse field = .ok parts) :
    parse (render parts) = .ok parts := by
  obtain ⟨items, spelled, rfl⟩ := parse_eq_ok_iff.1 read
  refine parse_eq_ok_iff.2 ⟨items.map Item.canonical, ?_, (merge_canonical items).symm⟩
  rw [toList_render_merge]
  exact spelled.canonical

/-- A field is read exactly if it is a sequence of items, into the parts that these merge into. It
is a single placeholder just if it is written as one, it has none just if no item is one, and its
parts written back are read as the same parts. -/
theorem parse_accepts_exactly_fields (field : String) :
    ((∃ parts, parse field = .ok parts) ↔ ∃ items, Spells field.toList items) ∧
    ∀ items, Spells field.toList items → ∃ parts, parse field = .ok parts ∧ Merges items parts ∧
      (∀ p, sole parts = some p ↔ p.Spans field) ∧
      (allOf parts = [] ↔ ∀ p, .placeholder p ∉ items) ∧
      parse (render parts) = .ok parts := by
  constructor
  · constructor
    · rintro ⟨parts, read⟩
      obtain ⟨items, spelled, _⟩ := parse_eq_ok_iff.1 read
      exact ⟨items, spelled⟩
    · rintro ⟨items, spelled⟩
      exact ⟨_, parse_eq_ok_iff.2 ⟨items, spelled, rfl⟩⟩
  · intro items spelled
    have read : parse field = .ok (merge items) := parse_eq_ok_iff.2 ⟨items, spelled, rfl⟩
    refine ⟨merge items, read, merges_merge items, fun p => sole_eq_some_iff read, ?_,
      parse_render_of_parse read⟩
    rw [allOf_merge, List.filterMap_eq_nil_iff]
    constructor
    · intro none p member
      cases none _ member
    · intro none item member
      cases item with
      | dollar | pair | plain => rfl
      | placeholder p => exact absurd member (none p)

/-- The second dollar sign is not escaped, since the backslashes before it are a pair; the third one
and the last backslash are text. -/
def quoted : String := "\\$a\\\\${?b}$\\c"

theorem parse_accepts_exactly_fields_quoted :
    Spells quoted.toList [.dollar, .plain 'a', .pair, .placeholder ⟨.optional, "b"⟩, .plain '$',
        .plain '\\', .plain 'c'] ∧
      ∃ parts, parse quoted = .ok parts ∧ sole parts = none ∧ allOf parts ≠ [] ∧
        render parts = "\\$a\\\\${?b}\\$\\c" ∧ parse (render parts) = .ok parts := by
  have spelled : Spells quoted.toList [.dollar, .plain 'a', .pair, .placeholder ⟨.optional, "b"⟩,
      .plain '$', .plain '\\', .plain 'c'] :=
    scan_eq_ok_iff.1 (toOption_eq_some.1 (by decide +kernel : (scan "" _).toOption = _))
  obtain ⟨parts, read, _, single, none, again⟩ := (parse_accepts_exactly_fields quoted).2 _ spelled
  have known : parse quoted = .ok [.text "$a\\\\", .placeholder ⟨.optional, "b"⟩, .text "$\\c"] :=
    toOption_eq_some.1 (by decide +kernel)
  rw [read] at known
  cases Except.ok.inj known
  refine ⟨spelled, _, read, rfl, ?_, by decide, again⟩
  exact fun empty => none.1 empty ⟨.optional, "b"⟩ (by decide)

end Placeholder
end ScopedCommands
