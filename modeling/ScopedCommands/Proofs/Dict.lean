import Mathlib.Data.List.Sort
import ScopedCommands.Dict

namespace ScopedCommands

namespace Dict

variable {α β : Type} {a b d : Dict α} {name : String}

theorem mem_entries_iff {value : α} : (name, value) ∈ d.entries ↔ d.get? name = some value := by
  obtain ⟨entries, sorted⟩ := d
  unfold get?
  induction sorted with
  | nil => simp
  | @cons first rest below _ ih =>
    obtain ⟨key, own⟩ := first
    rw [List.mem_cons, ih, List.lookup_cons]
    by_cases same : name = key
    · -- No later entry has the key of the first one.
      subst same
      have later : rest.lookup name ≠ some value := by
        intro found
        obtain ⟨before, after, split, _⟩ := List.lookup_eq_some_iff.1 found
        have above := below (name, value) (by simp [split])
        exact String.lt_irrefl name above
      simp [later, eq_comm]
    · have other : (name == key) = false := by simpa using same
      simp [same, other]

theorem ext_get? (same : ∀ name, a.get? name = b.get? name) : a = b := by
  have irrefl : Std.Irrefl fun x y : String × α => x.1 < y.1 := ⟨fun x => String.lt_irrefl x.1⟩
  have antisymm : Std.Antisymm fun x y : String × α => x.1 < y.1 :=
    ⟨fun x y less more => absurd (String.lt_trans less more) (String.lt_irrefl x.1)⟩
  apply Dict.ext
  apply a.sorted.eq_of_mem_iff b.sorted
  intro entry
  rw [mem_entries_iff, same, mem_entries_iff]

theorem lookup_mapped (f : String → α → β) (l : List (String × α)) (name : String) :
    (l.map fun e => (e.1, f e.1 e.2)).lookup name = (l.lookup name).map (f name) := by
  induction l with
  | nil => rfl
  | cons first rest ih =>
    rw [List.map_cons, List.lookup_cons, List.lookup_cons, ih]
    by_cases same : name = first.1
    · simp [same]
    · have other : (name == first.1) = false := by simpa using same
      simp [other]

theorem get?_map (f : String → α → β) (d : Dict α) (name : String) :
    (d.map f).get? name = (d.get? name).map (f name) :=
  lookup_mapped f d.entries name

theorem keys_map (f : String → α → β) (d : Dict α) : (d.map f).keys = d.keys := by
  simp [keys, map]

theorem contains_map (f : String → α → β) (d : Dict α) (name : String) :
    (d.map f).contains name = d.contains name := by
  simp [contains, get?_map]

theorem keys_pairwise (d : Dict α) : d.keys.Pairwise (· < ·) :=
  d.sorted.map _ fun _ _ less => less

theorem contains_insert {key : String} {value : α} :
    (d.insert key value).contains name = true ↔ name = key ∨ d.contains name = true := by
  unfold contains
  rw [get?_insert]
  split <;> simp [*]

theorem contains_erase {key : String} :
    (d.erase key).contains name = true ↔ name ≠ key ∧ d.contains name = true := by
  rw [← mem_keys_iff, ← mem_keys_iff]
  simp [keys, erase, and_comm]

theorem get?_filter (keeps : String → α → Bool) (d : Dict α) (name : String) :
    (d.filter keeps).get? name = (d.get? name).filter (keeps name) := by
  apply Option.ext
  intro value
  rw [← mem_entries_iff, Option.filter_eq_some_iff, ← mem_entries_iff]
  exact List.mem_filter

theorem get?_erase (d : Dict α) (key name : String) :
    (d.erase key).get? name = if name = key then none else d.get? name := by
  rw [show d.erase key = d.filter fun other _ => other != key from rfl, get?_filter]
  by_cases same : name = key <;> cases d.get? name <;> simp [same]

theorem filter_lt_eq {γ : Type} (key : γ → String) {l before after : List γ} {x : γ}
    (ordered : l.Pairwise fun y z => key y < key z) (whole : l = before ++ x :: after) :
    (l.filter fun y => key y < key x) = before := by
  subst whole
  obtain ⟨_, above, below⟩ := List.pairwise_append.1 ordered
  have kept : ∀ y ∈ before, decide (key y < key x) = true := fun y member =>
    decide_eq_true (below y member x List.mem_cons_self)
  have dropped : ∀ y ∈ x :: after, ¬ decide (key y < key x) = true := by
    intro y member less
    have less := of_decide_eq_true less
    rcases List.mem_cons.1 member with rfl | later
    · exact String.lt_irrefl _ less
    · exact String.lt_irrefl _ (String.lt_trans less ((List.pairwise_cons.1 above).1 y later))
  rw [List.filter_append, List.filter_eq_self.2 kept, List.filter_eq_nil_iff.2 dropped,
    List.append_nil]

theorem mem_before_iff {γ : Type} (key : γ → String) {l before after : List γ} {x y : γ}
    (ordered : l.Pairwise fun y z => key y < key z) (whole : l = before ++ x :: after) :
    y ∈ before ↔ y ∈ l ∧ key y < key x := by
  rw [← filter_lt_eq key ordered whole, List.mem_filter, decide_eq_true_eq]

theorem get?_union (a b : Dict α) (key : String) :
    (a.union b).get? key = (b.get? key).or (a.get? key) := by
  unfold union
  obtain ⟨added, sorted⟩ := b
  simp only [get?]
  induction sorted generalizing a with
  | nil => rfl
  | @cons first rest below _ ih =>
    obtain ⟨own, value⟩ := first
    rw [List.foldl_cons, ih, List.lookup_cons]
    by_cases same : key = own
    · subst same
      -- The entries that are still to come have greater keys.
      have later : rest.lookup key = none := by
        rw [List.lookup_eq_none_iff]
        intro entry member
        simpa using (String.ne_of_lt (below entry member))
      have here : (a.insert key value).entries.lookup key = some value := by
        simpa [get?] using get?_insert a key key value
      simp [later, here]
    · have other : (key == own) = false := by simpa using same
      have old : (a.insert own value).entries.lookup key = a.entries.lookup key := by
        simpa [get?, same] using get?_insert a own key value
      simp [other, old]

theorem ofList_entries (d : Dict α) : ofList d.entries = d := by
  apply ext_get?
  intro name
  change (empty.union d).get? name = d.get? name
  rw [get?_union, get?_empty, Option.or_none]

theorem contains_eq_of_keys (same : a.keys = b.keys) (name : String) :
    a.contains name = b.contains name := by
  rw [Bool.eq_iff_iff, ← mem_keys_iff, same, mem_keys_iff]

end Dict

theorem NameSet.ext_contains {a b : NameSet}
    (same : ∀ name, a.contains name = true ↔ b.contains name = true) : a = b := by
  apply Dict.ext_get?
  intro name
  have both := same name
  unfold Dict.contains at both
  cases left : a.get? name with
  | none => cases right : b.get? name <;> simp [left, right] at both ⊢
  | some _ => cases right : b.get? name <;> simp [left, right] at both ⊢

theorem NameSet.ofNames_eq_iff {xs ys : List String} :
    NameSet.ofNames xs = NameSet.ofNames ys ↔ ∀ name, name ∈ xs ↔ name ∈ ys := by
  constructor
  · intro same name
    rw [← NameSet.contains_ofNames xs, same, NameSet.contains_ofNames]
  · intro same
    apply NameSet.ext_contains
    intro name
    rw [NameSet.contains_ofNames, NameSet.contains_ofNames, same]

end ScopedCommands
