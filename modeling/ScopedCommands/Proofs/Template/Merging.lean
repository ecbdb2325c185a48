import ScopedCommands.Proofs.Template.Registry

namespace ScopedCommands

namespace Registry

open Outcome

def Apart (a b : Registry) : Prop := ∀ name, a.contains name = true → b.contains name = false

/-- The least name that is in both, with its entries. -/
structure FirstShared (a b : Registry) (name : String) (own other : StoredTemplate) : Prop where
  own : a.get? name = some own
  other : b.get? name = some other
  least : ∀ earlier, earlier < name → a.contains earlier = true → b.contains earlier = false

variable {a b c r s : Registry} {name : String} {entry own other : StoredTemplate}
  {rs ss : List Registry}

theorem contains_eq_true_iff : a.contains name = true ↔ ∃ entry, a.get? name = some entry :=
  Option.isSome_iff_exists

theorem contains_eq_false_iff : a.contains name = false ↔ a.get? name = none := by
  simp [Dict.contains]

theorem Apart.symm (apart : a.Apart b) : b.Apart a := by
  intro name inside
  refine Bool.eq_false_iff.2 fun also => ?_
  rw [apart name also] at inside
  cases inside

theorem contains_union : (a.union b).contains name = true ↔
    a.contains name = true ∨ b.contains name = true := by
  simp only [Dict.contains, Dict.get?_union]
  cases a.get? name <;> cases b.get? name <;> simp

theorem apart_union_iff : Apart (a.union b) c ↔ a.Apart c ∧ b.Apart c := by
  simp only [Apart, contains_union, or_imp, forall_and]

theorem get?_union_of_apart (apart : a.Apart b) : (a.union b).get? name = some entry ↔
    a.get? name = some entry ∨ b.get? name = some entry := by
  rw [Dict.get?_union]
  cases found : b.get? name with
  | none => simp
  | some other =>
    have absent : a.get? name = none :=
      contains_eq_false_iff.1 (apart.symm name (contains_eq_true_iff.2 ⟨_, found⟩))
    simp [absent]

theorem storeAll_cases (r : Registry) {l : List (String × StoredTemplate)}
    (distinct : l.Pairwise (·.1 ≠ ·.1)) :
    (∀ e ∈ l, r.get? e.1 = none) ∧
        r.storeAll l = (.ok (), l.foldl (fun d e => d.insert e.1 e.2) r) ∨
      ∃ before name other after own, l = before ++ (name, other) :: after ∧
        (∀ e ∈ before, r.get? e.1 = none) ∧ r.get? name = some own ∧
        r.storeAll l = (.error (.duplicateTemplate name own.source other.source),
          before.foldl (fun d e => d.insert e.1 e.2) r) := by
  induction l generalizing r with
  | nil => exact .inl ⟨nofun, rfl⟩
  | cons first rest ih =>
    obtain ⟨key, entry⟩ := first
    obtain ⟨others, later⟩ := List.pairwise_cons.1 distinct
    cases taken : r.get? key with
    | some own =>
      refine .inr ⟨[], key, entry, rest, own, rfl, nofun, taken, ?_⟩
      simp [storeAll, store, taken]
    | none =>
      have stored : r.storeAll ((key, entry) :: rest) = storeAll (r.insert key entry) rest := by
        simp [storeAll, store, taken]
      -- The entry just stored takes no name of those that follow.
      have still : ∀ e ∈ rest, (Dict.insert r key entry).get? e.1 = r.get? e.1 := by
        intro e member
        rw [Dict.get?_insert, if_neg (others e member).symm]
      rw [stored]
      rcases ih (r.insert key entry) later with
        ⟨free, done⟩ | ⟨before, name, other, after, own, rfl, free, found, stopped⟩
      · refine .inl ⟨List.forall_mem_cons.2 ⟨taken, fun e member => ?_⟩, done⟩
        rw [← still e member]
        exact free e member
      · refine .inr ⟨(key, entry) :: before, name, other, after, own, rfl, ?_, ?_, stopped⟩
        · refine List.forall_mem_cons.2 ⟨taken, fun e member => ?_⟩
          rw [← still e (List.mem_append_left _ member)]
          exact free e member
        · rw [← still (name, other) (by simp)]
          exact found

/-- A merge gives the union, or it stops at the least shared name and keeps what was before it. -/
theorem merge_cases (a b : Registry) :
    a.Apart b ∧ a.merge b = (.ok (), a.union b) ∨
      ∃ name own other, a.FirstShared b name own other ∧
        a.merge b = (.error (.duplicateTemplate name own.source other.source),
          a.union (b.filter fun key _ => key < name)) := by
  rcases storeAll_cases a (distinct_entries b) with
    ⟨free, done⟩ | ⟨before, name, other, after, own, whole, free, found, stopped⟩
  · refine .inl ⟨Apart.symm fun name inside => ?_, done⟩
    obtain ⟨entry, stored⟩ := contains_eq_true_iff.1 inside
    exact contains_eq_false_iff.2 (free (name, entry) (Dict.mem_entries_iff.2 stored))
  · refine .inr ⟨name, own, other, ⟨found, ?_, ?_⟩, ?_⟩
    · rw [← Dict.mem_entries_iff, whole]
      simp
    · intro earlier less inside
      refine Bool.eq_false_iff.2 fun also => ?_
      obtain ⟨entry, stored⟩ := contains_eq_true_iff.1 also
      have member : (earlier, entry) ∈ before :=
        (Dict.mem_before_iff Prod.fst b.sorted whole).2 ⟨Dict.mem_entries_iff.2 stored, less⟩
      rw [contains_eq_false_iff.2 (free _ member)] at inside
      cases inside
    · have rest : (b.filter fun key _ => key < name).entries = before :=
        Dict.filter_lt_eq Prod.fst b.sorted whole
      rw [merge, stopped, Dict.union, rest]

theorem FirstShared.not_apart (shared : a.FirstShared b name own other) : ¬ a.Apart b := by
  intro apart
  have absent := apart name (contains_eq_true_iff.2 ⟨_, shared.own⟩)
  rw [contains_eq_true_iff.2 ⟨_, shared.other⟩] at absent
  cases absent

theorem merge_isOk_iff : (a.merge b).1 = .ok () ↔ b.Apart a := by
  rcases merge_cases a b with ⟨apart, done⟩ | ⟨name, own, other, shared, stopped⟩
  · rw [done]
    exact iff_of_true rfl apart.symm
  · rw [stopped]
    exact iff_of_false nofun fun apart => shared.not_apart apart.symm

theorem FirstShared.apart_filter (shared : a.FirstShared b name own other) :
    a.Apart (b.filter fun key _ => key < name) := by
  intro earlier inside
  rw [contains_eq_false_iff, Dict.get?_filter]
  by_cases less : earlier < name
  · rw [contains_eq_false_iff.1 (shared.least earlier less inside)]
    rfl
  · cases b.get? earlier <;> simp [less]

/-- What a merge says and leaves. -/
structure MergeTold (a b : Registry) : Prop where
  accepted : (a.merge b).1 = .ok () ↔ a.Apart b
  union : a.Apart b → ∀ name entry, (a.merge b).2.get? name = some entry ↔
    a.get? name = some entry ∨ b.get? name = some entry
  refused : ∀ e, (a.merge b).1 = .error e → ∃ name own other, a.FirstShared b name own other ∧
    e = .duplicateTemplate name own.source other.source ∧
    ∀ key entry, (a.merge b).2.get? key = some entry ↔
      a.get? key = some entry ∨ key < name ∧ b.get? key = some entry

theorem mergeTold (a b : Registry) : a.MergeTold b := by
  rcases merge_cases a b with ⟨apart, done⟩ | ⟨name, own, other, shared, stopped⟩
  · refine ⟨merge_isOk_iff.trans ⟨Apart.symm, Apart.symm⟩, ?_, ?_⟩
    · intro _ name entry
      rw [done]
      exact get?_union_of_apart apart
    · intro e failed
      rw [done] at failed
      cases failed
  · refine ⟨merge_isOk_iff.trans ⟨Apart.symm, Apart.symm⟩, ?_, ?_⟩
    · intro apart
      exact absurd apart shared.not_apart
    · intro e failed
      rw [stopped] at failed ⊢
      refine ⟨name, own, other, shared, (Except.error.inj failed).symm, fun key entry => ?_⟩
      rw [get?_union_of_apart shared.apart_filter, Dict.get?_filter, Option.filter_eq_some_iff,
        decide_eq_true_eq, and_comm (a := key < name)]

def merged (a b : Registry) : Except TemplateError Registry :=
  (a.merge b).1.map fun _ => (a.merge b).2

def mergeAll (r : Registry) (others : List Registry) : Except TemplateError Registry :=
  others.foldlM merged r

theorem merged_eq_ok : a.merged b = .ok c ↔ a.Apart b ∧ c = a.union b := by
  unfold merged
  rcases merge_cases a b with ⟨apart, done⟩ | ⟨name, own, other, shared, stopped⟩
  · rw [done]
    simp [Except.map, apart, eq_comm]
  · rw [stopped]
    simp [Except.map, shared.not_apart]

theorem mergeAll_eq_ok : mergeAll r rs = .ok s ↔
    (r :: rs).Pairwise Apart ∧ s = rs.foldl Dict.union r := by
  unfold mergeAll
  induction rs generalizing r with
  | nil => simp [Pure.pure, Except.pure, eq_comm]
  | cons first rest ih =>
    rw [List.foldlM_cons, bind_eq_ok, List.foldl_cons]
    simp only [merged_eq_ok, and_assoc, exists_and_left, exists_eq_left, ih, List.pairwise_cons,
      List.forall_mem_cons, apart_union_iff, forall_and]

theorem get?_foldl_union (apart : (r :: rs).Pairwise Apart) :
    (rs.foldl Dict.union r).get? name = some entry ↔ ∃ x ∈ r :: rs, x.get? name = some entry := by
  induction rs generalizing r with
  | nil => simp
  | cons first rest ih =>
    obtain ⟨own, later⟩ := List.pairwise_cons.1 apart
    obtain ⟨next, others⟩ := List.forall_mem_cons.1 own
    obtain ⟨following, last⟩ := List.pairwise_cons.1 later
    have both : ((r.union first) :: rest).Pairwise Apart := by
      refine List.pairwise_cons.2 ⟨fun x member => ?_, last⟩
      exact apart_union_iff.2 ⟨others x member, following x member⟩
    rw [List.foldl_cons, ih both]
    simp only [List.exists_mem_cons_iff, get?_union_of_apart next, or_assoc]

/-- The order does not matter, nor which registry the others are merged into. -/
theorem mergeAll_perm (apart : (r :: rs).Pairwise Apart) (same : (r :: rs).Perm (s :: ss)) :
    ∃ all, mergeAll r rs = .ok all ∧ mergeAll s ss = .ok all ∧
      ∀ name entry, all.get? name = some entry ↔ ∃ x ∈ r :: rs, x.get? name = some entry := by
  have other : (s :: ss).Pairwise Apart := same.pairwise apart Apart.symm
  refine ⟨_, mergeAll_eq_ok.2 ⟨apart, rfl⟩, mergeAll_eq_ok.2 ⟨other, ?_⟩, fun name entry =>
    get?_foldl_union apart⟩
  apply Dict.ext_get?
  intro name
  apply Option.ext
  intro entry
  rw [get?_foldl_union apart, get?_foldl_union other]
  simp only [same.mem_iff]

end Registry
end ScopedCommands
