import Mathlib.Data.List.Sort
import ScopedCommands.Proofs.Expansion.Paths
import ScopedCommands.Proofs.Outcome

namespace ScopedCommands

open Outcome

def Segment.name? : Segment → Option String
  | .literal _ => none
  | .reference name _ => some name

namespace Reference

def occurrences (segments : List Segment) : List String := segments.filterMap Segment.name?

/-- Each of the occurrences once, in the order in which they first come. -/
structure ListsOnce (occurrences names : List String) : Prop where
  distinct : names.Nodup
  members : ∀ name, name ∈ names ↔ name ∈ occurrences
  ordered : names.Pairwise fun a b => occurrences.idxOf a < occurrences.idxOf b

theorem ListsOnce.cons {occurrences names : List String} (h : ListsOnce occurrences names)
    (name : String) : ListsOnce (name :: occurrences) (name :: names.filter (· != name)) := by
  have other {x : String} (listed : x ∈ names.filter (· != name)) : name ≠ x := by
    intro same
    simp [← same] at listed
  refine ⟨?_, fun x => ?_, List.pairwise_cons.2 ⟨fun x listed => ?_, ?_⟩⟩
  · exact List.nodup_cons.2 ⟨by simp, h.distinct.filter _⟩
  · by_cases same : x = name
    · simp [same]
    · simp [same, h.members]
  · rw [List.idxOf_cons_self, List.idxOf_cons_ne _ (other listed)]
    exact Nat.succ_pos _
  · refine (h.ordered.filter _).imp_of_mem fun first second before => ?_
    rw [List.idxOf_cons_ne _ (other first), List.idxOf_cons_ne _ (other second)]
    exact Nat.succ_lt_succ before

theorem ListsOnce.unique {occurrences xs ys : List String} (h : ListsOnce occurrences xs)
    (k : ListsOnce occurrences ys) : xs = ys := by
  have irrefl : Std.Irrefl fun a b : String => occurrences.idxOf a < occurrences.idxOf b :=
    ⟨fun _ => Nat.lt_irrefl _⟩
  have antisymm : Std.Antisymm fun a b : String => occurrences.idxOf a < occurrences.idxOf b :=
    ⟨fun _ _ before behind => absurd before (Nat.lt_asymm behind)⟩
  apply h.ordered.eq_of_mem_iff k.ordered
  intro name
  rw [h.members, k.members]

theorem listsOnce_namesOf (segments : List Segment) :
    ListsOnce (occurrences segments) (namesOf segments) := by
  induction segments with
  | nil => exact ⟨.nil, fun _ => .rfl, .nil⟩
  | cons segment rest ih =>
    cases segment with
    | literal text => exact ih
    | reference name position => exact ih.cons name

theorem collect_eq_error_iff {raw : String} {e : ReferenceError} :
    collect raw = .error e ↔ parse raw = .error e :=
  map_eq_error

theorem collect_eq_ok_iff {raw : String} {names : List String} :
    collect raw = .ok names ↔
      ∃ segments, parse raw = .ok segments ∧ ListsOnce (occurrences segments) names := by
  refine map_eq_ok.trans (exists_congr fun segments => and_congr_right fun _ => ?_)
  constructor
  · rintro rfl
    exact listsOnce_namesOf segments
  · exact (listsOnce_namesOf segments).unique

theorem mentions_iff_collected {raw name : String} :
    Mentions raw name ↔ ∃ names, collect raw = .ok names ∧ name ∈ names := by
  have occurs (segments : List Segment) :
      name ∈ occurrences segments ↔ ∃ position, .reference name position ∈ segments := by
    unfold occurrences
    rw [List.mem_filterMap]
    constructor
    · rintro ⟨segment, member, same⟩
      cases segment with
      | literal text => cases same
      | reference other position =>
        cases same
        exact ⟨position, member⟩
    · rintro ⟨position, member⟩
      exact ⟨_, member, rfl⟩
  simp only [collect_eq_ok_iff]
  constructor
  · rintro ⟨segments, position, read, member⟩
    have once := listsOnce_namesOf segments
    exact ⟨_, ⟨segments, read, once⟩, (once.members name).2 ((occurs segments).2 ⟨position, member⟩)⟩
  · rintro ⟨names, ⟨segments, read, once⟩, listed⟩
    obtain ⟨position, member⟩ := (occurs segments).1 ((once.members name).1 listed)
    exact ⟨segments, position, read, member⟩

end Reference
end ScopedCommands
