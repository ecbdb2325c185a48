import ScopedCommands.Proofs.Expansion.Denoted
import ScopedCommands.Proofs.Reference.Grammar
import ScopedCommands.Text.Basic

namespace ScopedCommands

theorem Text.allBlank_append (a b : String) :
    allBlank (a ++ b) = (allBlank a && allBlank b) := by
  simp [allBlank]

namespace Reference

theorem Begins.blank_written {before text rest : List Char} {item : Item} {c : Char}
    (h : Begins before text item rest) (mark : item.mark = .inl c) (blank : Text.isBlank c = true) :
    item.written.all Text.isBlank = true := by
  cases h with
  | escaped _ escapable =>
    cases mark
    rcases escapable with rfl | rfl
    · revert blank
      decide
    · revert blank
      decide
  | reference _ _ _ => cases mark
  | plain _ _ _ =>
    cases mark
    simp [Item.written, blank]

theorem Spells.blank_written {before text rest : List Char} {items : List Item}
    (h : Spells before text items rest)
    (blank : ∀ item ∈ items, ∃ c, item.mark = .inl c ∧ Text.isBlank c = true) :
    (items.flatMap Item.written).all Text.isBlank = true := by
  induction h with
  | stop => rfl
  | @item before text middle rest first items here later ih =>
    obtain ⟨c, mark, white⟩ := blank first List.mem_cons_self
    have others := ih fun item member => blank item (List.mem_cons_of_mem first member)
    rw [List.flatMap_cons, List.all_append, here.blank_written mark white, others]
    rfl

/-- What is left of a text besides white space is a reference, or stands in a literal. -/
theorem mentions_of_blank_literals {raw : String} {segments : List Segment}
    (read : parse raw = .ok segments) (visible : Text.allBlank raw = false)
    (literals : ∀ text, .literal text ∈ segments → Text.allBlank text = true) :
    ∃ name, Mentions raw name := by
  obtain ⟨items, spelled, merges⟩ := parse_eq_ok_iff_spells.1 read
  apply Classical.byContradiction
  intro none
  have white : ∀ item ∈ items, ∃ c, item.mark = .inl c ∧ Text.isBlank c = true := by
    intro item member
    have mark : item.mark ∈ segments.flatMap Segment.marks := by
      rw [merges.marks]
      exact List.mem_map_of_mem member
    obtain ⟨segment, inside, own⟩ := List.mem_flatMap.1 mark
    cases segment with
    | literal text =>
      obtain ⟨c, letter, same⟩ := List.mem_map.1 own
      exact ⟨c, same.symm, List.all_eq_true.1 (literals text inside) c letter⟩
    | reference name position => exact absurd ⟨name, segments, position, read, inside⟩ none
  have blank := spelled.blank_written white
  have whole : raw.toList = items.flatMap Item.written := by
    simpa using spelled.text_eq
  rw [Text.allBlank, whole, blank] at visible
  cases visible

end Reference

variable {lookup : Lookup} {external : Option External}

theorem Stands.unique {name v w : String} (h : Stands lookup external name v)
    (k : Stands lookup external name w) : v = w := by
  cases h with
  | resolved bound => exact (k.of_resolved bound).symm
  | raw bound substituted => exact substituted.unique (k.of_raw bound)
  | process unbound view _ =>
    cases k with
    | resolved bound => simp [unbound] at bound
    | raw bound => simp [unbound] at bound
    | process _ view' _ =>
      rw [view] at view'
      cases view'
      rfl

inductive Segment.BlankIn (lookup : Lookup) (external : Option External) : Segment → Prop where
  | literal {text : String} (blank : Text.allBlank text = true) : BlankIn lookup external (.literal text)
  | reference {name value : String} (position : Nat) (stands : Stands lookup external name value)
      (blank : Text.allBlank value = true) : BlankIn lookup external (.reference name position)

theorem Segment.blankIn_literal_iff {text : String} :
    (Segment.literal text).BlankIn lookup external ↔ Text.allBlank text = true := by
  constructor
  · rintro ⟨blank⟩
    exact blank
  · exact .literal

theorem Segment.blankIn_reference_iff {name value : String} {position : Nat}
    (stands : Stands lookup external name value) :
    (Segment.reference name position).BlankIn lookup external ↔ Text.allBlank value = true := by
  constructor
  · rintro (_ | ⟨_, also, blank⟩)
    rwa [stands.unique also]
  · exact .reference position stands

theorem Denotes.allBlank_iff {segments : List Segment} {value : String}
    (h : Denotes lookup external segments value) :
    Text.allBlank value = true ↔ ∀ segment ∈ segments, segment.BlankIn lookup external := by
  induction segments generalizing value with
  | nil =>
    cases h
    simp [Text.allBlank]
  | cons segment rest ih =>
    rw [List.forall_mem_cons]
    cases segment with
    | literal text =>
      obtain ⟨tail, later, rfl⟩ := denotes_literal_iff.1 h
      rw [Text.allBlank_append, Bool.and_eq_true, ih later, Segment.blankIn_literal_iff]
    | reference name position =>
      obtain ⟨own, tail, stands, later, rfl⟩ := denotes_reference_iff.1 h
      rw [Text.allBlank_append, Bool.and_eq_true, ih later, Segment.blankIn_reference_iff stands]

/-- White space and references to what stands for white space only, at least one of these. -/
structure Reference.BlankIn (lookup : Lookup) (external : Option External) (raw : String) : Prop where
  mentions : ∃ name, Mentions raw name
  segments : ∃ segments, parse raw = .ok segments ∧
    ∀ segment ∈ segments, segment.BlankIn lookup external

theorem Substitutes.allBlank_iff {raw value : String} (h : Substitutes lookup external raw value)
    (visible : Text.allBlank raw = false) :
    Text.allBlank value = true ↔ Reference.BlankIn lookup external raw := by
  obtain ⟨segments, read, denoted⟩ := h
  rw [denoted.allBlank_iff]
  constructor
  · intro blank
    have literals : ∀ text, .literal text ∈ segments → Text.allBlank text = true :=
      fun text member => Segment.blankIn_literal_iff.1 (blank _ member)
    exact ⟨Reference.mentions_of_blank_literals read visible literals, segments, read, blank⟩
  · rintro ⟨_, others, also, blank⟩
    rw [read] at also
    cases also
    exact blank

end ScopedCommands
