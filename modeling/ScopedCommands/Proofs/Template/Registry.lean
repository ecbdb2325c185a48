import ScopedCommands.Files.Load
import ScopedCommands.Proofs.Dict
import ScopedCommands.Proofs.Template.WellFormed

namespace ScopedCommands

open Outcome

theorem Template.risk_of_check {name : String} {t : Template} (checked : t.check name = .ok ()) :
    ∃ level, RiskLevel.parseDeclared t.riskLevel = .ok level := by
  obtain ⟨_, _, risk⟩ := check_eq_ok_iff.1 checked
  unfold checkRisk at risk
  cases parsed : RiskLevel.parseDeclared t.riskLevel with
  | ok level => exact ⟨level, rfl⟩
  | error e => simp [parsed] at risk

namespace Registry

/-- What registering, merging and loading can give. A merge that fails keeps what it did. -/
inductive Built : Registry → Prop where
  | empty : Built .empty
  | register {r next : Registry} {name source : String} {t : Template} (before : Built r)
      (registered : r.register name t source = .ok next) : Built next
  | merge {a b : Registry} (own : Built a) (other : Built b) : Built (a.merge b).2

def Checked (r : Registry) : Prop := ∀ e ∈ r.entries, e.2.template.check e.1 = .ok ()

variable {r next : Registry} {name source : String} {t : Template}

theorem Checked.insert {entry : StoredTemplate} (h : r.Checked)
    (checked : entry.template.check name = .ok ()) : Checked (Dict.insert r name entry) := by
  intro e member
  rcases Dict.mem_insertEntry member with rfl | old
  · exact checked
  · exact h e old

theorem add_cases (r : Registry) (name : String) (t : Template) (source : String) :
    (∃ e, r.add name t source = (.error e, r)) ∨
      r.get? name = none ∧ t.check name = .ok () ∧
        r.add name t source = (.ok (), Dict.insert r name ⟨t, source⟩) := by
  unfold add
  cases taken : r.get? name with
  | some existing => exact .inl ⟨_, rfl⟩
  | none =>
    cases checked : t.check name with
    | error e => exact .inl ⟨e, rfl⟩
    | ok _ => exact .inr ⟨rfl, rfl, rfl⟩

theorem register_eq_ok : r.register name t source = .ok next ↔
    r.add name t source = (.ok (), next) := by
  unfold register
  rcases r.add name t source with ⟨_ | _, after⟩ <;> simp

theorem Checked.register (h : r.Checked) (registered : r.register name t source = .ok next) :
    next.Checked := by
  have added := register_eq_ok.1 registered
  rcases r.add_cases name t source with ⟨e, failed⟩ | ⟨_, checked, done⟩
  · rw [failed] at added
    cases added
  · rw [done] at added
    cases added
    exact h.insert checked

theorem Checked.storeAll {l : List (String × StoredTemplate)} (h : r.Checked)
    (each : ∀ e ∈ l, e.2.template.check e.1 = .ok ()) : (r.storeAll l).2.Checked := by
  induction l generalizing r with
  | nil => exact h
  | cons first rest ih =>
    obtain ⟨name, entry⟩ := first
    unfold Registry.storeAll store
    cases taken : r.get? name with
    | some existing => exact h
    | none =>
      have checked : entry.template.check name = .ok () := each _ List.mem_cons_self
      exact ih (h.insert checked) fun e member => each e (List.mem_cons_of_mem _ member)

theorem Built.checked (h : r.Built) : r.Checked := by
  induction h with
  | empty => nofun
  | register _ registered ih => exact ih.register registered
  | merge _ _ own other => exact own.storeAll other

theorem check_of_template? (h : r.Checked) (known : r.template? name = some t) :
    t.check name = .ok () := by
  obtain ⟨entry, stored, rfl⟩ := Option.map_eq_some_iff.1 known
  obtain ⟨before, after, parts, _⟩ := List.lookup_eq_some_iff.1 stored
  exact h (name, entry) (by rw [parts]; simp)

theorem Built.registerAll {l : List (String × Template)} (h : r.Built)
    (registered : registerAll source r l = .ok next) : next.Built := by
  induction l generalizing r with
  | nil =>
    cases registered
    exact h
  | cons first rest ih =>
    obtain ⟨name, t⟩ := first
    unfold Registry.registerAll at registered
    cases added : r.register name t source with
    | error e => simp [added] at registered
    | ok more =>
      rw [added] at registered
      exact ih (h.register added) registered

theorem built_ofTemplates {templates : Dict Template} (made : ofTemplates templates source = .ok r) :
    r.Built :=
  Built.empty.registerAll made

theorem built_loadFile {files : Files} {path : String} (loaded : loadFile files path = .ok r) :
    r.Built := by
  obtain ⟨_, _, rest⟩ := bind_eq_ok.1 loaded
  obtain ⟨_, _, made⟩ := bind_eq_ok.1 rest
  exact built_ofTemplates (mapError_eq_ok.1 made)

theorem Built.loadFiles {files : Files} {paths : List String} (h : r.Built)
    (loaded : loadFiles files r paths = .ok next) : next.Built := by
  induction paths generalizing r with
  | nil =>
    cases loaded
    exact h
  | cons path rest ih =>
    obtain ⟨file, one, later⟩ := bind_eq_ok.1 loaded
    have both := h.merge (built_loadFile one)
    cases merged : r.merge file with
    | mk outcome all =>
      rw [merged] at later both
      cases outcome with
      | error e => cases later
      | ok _ => exact ih both later

theorem built_loadDirectory {files : Files} {directory : String}
    (loaded : loadDirectory files directory = .ok r) : r.Built :=
  Built.empty.loadFiles loaded

theorem distinct_entries {α : Type} (d : Dict α) : d.entries.Pairwise (·.1 ≠ ·.1) := by
  refine d.sorted.imp fun lt same => ?_
  rw [same] at lt
  exact String.lt_irrefl _ lt

/-- Templates of one source are registered in order, up to the first that is refused. -/
theorem registerAll_cases (source : String) (r : Registry) {l : List (String × Template)}
    (distinct : l.Pairwise (·.1 ≠ ·.1)) (new : ∀ e ∈ l, r.get? e.1 = none) :
    (∀ e ∈ l, e.2.check e.1 = .ok ()) ∧
        registerAll source r l = .ok (l.foldl (fun d e => d.insert e.1 ⟨e.2, source⟩) r) ∨
      ∃ before name t after cause, l = before ++ (name, t) :: after ∧
        (∀ e ∈ before, e.2.check e.1 = .ok ()) ∧ t.check name = .error cause ∧
        registerAll source r l = .error cause := by
  induction l generalizing r with
  | nil => exact .inl ⟨nofun, rfl⟩
  | cons first rest ih =>
    obtain ⟨key, own⟩ := first
    obtain ⟨others, later⟩ := List.pairwise_cons.1 distinct
    obtain ⟨free, unknown⟩ := List.forall_mem_cons.1 new
    cases checked : own.check key with
    | error cause =>
      refine .inr ⟨[], key, own, rest, cause, rfl, nofun, checked, ?_⟩
      simp [registerAll, register, add, free, checked]
    | ok _ =>
      have added : registerAll source r ((key, own) :: rest) =
          registerAll source (Dict.insert r key ⟨own, source⟩) rest := by
        simp [registerAll, register, add, free, checked]
      have still : ∀ e ∈ rest, (Dict.insert r key ⟨own, source⟩).get? e.1 = none := by
        intro e member
        rw [Dict.get?_insert, if_neg (others e member).symm]
        exact unknown e member
      rw [added]
      rcases ih _ later still with
        ⟨accepted, done⟩ | ⟨before, name, t, after, cause, rfl, accepted, failed, stopped⟩
      · exact .inl ⟨List.forall_mem_cons.2 ⟨checked, accepted⟩, done⟩
      · exact .inr ⟨(key, own) :: before, name, t, after, cause, rfl,
          List.forall_mem_cons.2 ⟨checked, accepted⟩, failed, stopped⟩

theorem foldl_insert_entries {α β : Type} (f : α → β) (d : Dict α) :
    d.entries.foldl (fun d e => d.insert e.1 (f e.2)) (.empty : Dict β) = d.map fun _ => f := by
  have union : d.entries.foldl (fun d e => d.insert e.1 (f e.2)) (.empty : Dict β) =
      Dict.union .empty (d.map fun _ => f) := by
    rw [Dict.union, Dict.map, List.foldl_map]
  apply Dict.ext_get?
  intro name
  rw [union, Dict.get?_union, Dict.get?_empty, Option.or_none]

theorem ofTemplates_cases (templates : Dict Template) (source : String) :
    (∀ e ∈ templates.entries, e.2.check e.1 = .ok ()) ∧
        ofTemplates templates source = .ok (templates.map fun _ t => ⟨t, source⟩) ∨
      ∃ before name t after cause, templates.entries = before ++ (name, t) :: after ∧
        (∀ e ∈ before, e.2.check e.1 = .ok ()) ∧ t.check name = .error cause ∧
        ofTemplates templates source = .error cause := by
  rw [← foldl_insert_entries]
  exact registerAll_cases source empty (distinct_entries templates) fun _ _ => rfl

theorem ofTemplates_eq_ok {templates : Dict Template} : ofTemplates templates source = .ok r ↔
    (∀ e ∈ templates.entries, e.2.check e.1 = .ok ()) ∧
      r = templates.map fun _ t => ⟨t, source⟩ := by
  rcases ofTemplates_cases templates source with
    ⟨accepted, done⟩ | ⟨before, name, t, after, cause, whole, _, failed, stopped⟩
  · rw [done, Except.ok.injEq, eq_comm]
    exact (and_iff_right accepted).symm
  · rw [stopped]
    constructor
    · intro impossible
      cases impossible
    · rintro ⟨accepted, _⟩
      have checked := accepted (name, t) (by simp [whole])
      rw [failed] at checked
      cases checked

theorem ofTemplates_isOk_iff {templates : Dict Template} :
    (∃ r, ofTemplates templates source = .ok r) ↔
      ∀ e ∈ templates.entries, e.2.check e.1 = .ok () := by
  simp only [ofTemplates_eq_ok, exists_and_left, exists_eq, and_true]

theorem contains_ofTemplates {templates : Dict Template}
    (made : ofTemplates templates source = .ok r) (name : String) :
    r.contains name = templates.contains name := by
  rw [(ofTemplates_eq_ok.1 made).2]
  exact Dict.contains_map _ templates name

end Registry
end ScopedCommands
