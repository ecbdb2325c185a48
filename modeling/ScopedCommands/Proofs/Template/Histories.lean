import ScopedCommands.Proofs.Template.Registry

namespace ScopedCommands.Registry

open Outcome

/-- What was done to a registry, last operation outermost. A merged registry has its own history. -/
inductive History where
  | start
  | add (before : History) (name : String) (t : Template) (source : String)
  | merge (before other : History)

namespace History

def registry : History → Registry
  | start => .empty
  | add before name t source => (before.registry.add name t source).2
  | merge before other => (before.registry.merge other.registry).2

inductive GoesOn (h : History) : History → Prop where
  | same : GoesOn h h
  | add {later : History} (before : GoesOn h later) (name : String) (t : Template)
      (source : String) : GoesOn h (later.add name t source)
  | merge {later : History} (before : GoesOn h later) (other : History) :
      GoesOn h (later.merge other)

end History

def Keeps (r next : Registry) : Prop :=
  ∀ name entry, r.get? name = some entry → next.get? name = some entry

variable {r next last : Registry} {name source : String} {t : Template}

theorem Keeps.refl (r : Registry) : r.Keeps r := fun _ _ => id

theorem Keeps.trans (first : r.Keeps next) (second : next.Keeps last) : r.Keeps last :=
  fun name entry known => second name entry (first name entry known)

theorem keeps_insert (new : r.get? name = none) (entry : StoredTemplate) :
    r.Keeps (Dict.insert r name entry) := by
  intro other found known
  rw [Dict.get?_insert, if_neg, known]
  rintro rfl
  rw [new] at known
  cases known

theorem keeps_add (r : Registry) (name : String) (t : Template) (source : String) :
    r.Keeps (r.add name t source).2 := by
  rcases r.add_cases name t source with ⟨e, failed⟩ | ⟨new, _, done⟩
  · rw [failed]
    exact Keeps.refl r
  · rw [done]
    exact keeps_insert new ⟨t, source⟩

theorem keeps_storeAll (r : Registry) (l : List (String × StoredTemplate)) :
    r.Keeps (r.storeAll l).2 := by
  induction l generalizing r with
  | nil => exact Keeps.refl r
  | cons first rest ih =>
    obtain ⟨name, entry⟩ := first
    unfold Registry.storeAll store
    cases taken : r.get? name with
    | some existing => exact Keeps.refl r
    | none => exact (keeps_insert taken entry).trans (ih _)

theorem keeps_merge (a b : Registry) : a.Keeps (a.merge b).2 := keeps_storeAll a b.entries

namespace History

theorem GoesOn.keeps {h later : History} (goes : h.GoesOn later) :
    h.registry.Keeps later.registry := by
  induction goes with
  | same => exact Keeps.refl _
  | add _ name t source ih => exact ih.trans (keeps_add _ name t source)
  | merge _ other ih => exact ih.trans (keeps_merge _ other.registry)

theorem built (h : History) : h.registry.Built := by
  induction h with
  | start => exact .empty
  | add before name t source ih =>
    unfold registry
    rcases before.registry.add_cases name t source with ⟨e, failed⟩ | ⟨_, _, done⟩
    · rw [failed]
      exact ih
    · rw [done]
      exact ih.register (register_eq_ok.2 done)
  | merge before other own merged => exact own.merge merged

/-- Whatever was loaded has a history, so what holds after every history holds of it. -/
theorem exists_of_built (h : r.Built) : ∃ past : History, past.registry = r := by
  induction h with
  | empty => exact ⟨start, rfl⟩
  | @register _ _ name source t _ registered ih =>
    obtain ⟨past, rfl⟩ := ih
    refine ⟨past.add name t source, ?_⟩
    rw [registry, register_eq_ok.1 registered]
  | merge _ _ own merged =>
    obtain ⟨past, rfl⟩ := own
    obtain ⟨other, rfl⟩ := merged
    exact ⟨past.merge other, rfl⟩

/-- What can be relied on after a history, whatever was done in it and whatever is done next. -/
structure Sound (h : History) : Prop where
  checked : ∀ name t, h.registry.template? name = some t → t.check name = .ok ()
  ordered : h.registry.keys.Pairwise (· < ·)
  listed : ∀ name, name ∈ h.registry.keys ↔ h.registry.contains name = true
  found : ∀ name, (h.registry.template? name).isSome = h.registry.contains name
  told : ∀ name, (h.registry.source? name).isSome = h.registry.contains name
  counted : h.registry.size = h.registry.keys.length
  lasting : ∀ later, h.GoesOn later → ∀ name t source, h.registry.template? name = some t →
    h.registry.source? name = some source →
      later.registry.template? name = some t ∧ later.registry.source? name = some source
  unchanged : ∀ name t source e, (h.registry.add name t source).1 = .error e →
    (h.add name t source).registry = h.registry
  stored : ∀ name t source, (h.registry.add name t source).1 = .ok () →
    (h.add name t source).registry.get? name = some ⟨t, source⟩

/-- Registries are sound after every history: names are in order and those that can be looked up,
every template was checked and stays as it is, and an addition that fails changes nothing. -/
theorem registry_sound (h : History) : h.Sound where
  checked _ _ known := check_of_template? h.built.checked known
  ordered := h.registry.sorted.map _ fun _ _ lt => lt
  listed := Dict.mem_keys_iff h.registry
  found _ := Option.isSome_map
  told _ := Option.isSome_map
  counted := (List.length_map _).symm
  lasting later goes name t source known told := by
    obtain ⟨entry, stored, rfl⟩ := Option.map_eq_some_iff.1 known
    have still := goes.keeps name entry stored
    rw [source?, stored] at told
    rw [template?, source?, still]
    exact ⟨rfl, told⟩
  unchanged name t source e failed := by
    rcases h.registry.add_cases name t source with ⟨_, same⟩ | ⟨_, _, done⟩
    · rw [registry, same]
    · rw [done] at failed
      cases failed
  stored name t source added := by
    rcases h.registry.add_cases name t source with ⟨e, same⟩ | ⟨_, _, done⟩
    · rw [same] at added
      cases added
    · rw [registry, done, Dict.get?_insert, if_pos rfl]

/-- The second merged template is there already, so the merge stops before the third. -/
def interrupted : History :=
  ((start.add "build" { cmd := "make" } "own.yaml").merge
    (((start.add "archive" { cmd := "tar" } "b.yaml").add "build" { cmd := "ninja" } "b.yaml").add
      "clean" { cmd := "rm" } "b.yaml"))

theorem registry_sound_interrupted :
    interrupted.registry.keys = ["archive", "build"] ∧
      interrupted.registry.template? "build" = some { cmd := "make" } ∧
      interrupted.registry.source? "build" = some "own.yaml" ∧
      (interrupted.add "clean" { cmd := " " } "c.yaml").registry = interrupted.registry := by
  let first := start.add "build" { cmd := "make" } "own.yaml"
  have goes : first.GoesOn interrupted := .merge .same _
  obtain ⟨template, source⟩ := (registry_sound first).lasting interrupted goes "build"
    { cmd := "make" } "own.yaml" (by decide +kernel) (by decide +kernel)
  have blank : (interrupted.registry.add "clean" { cmd := " " } "c.yaml").1 =
      .error (.emptyCommand "clean") := error?_eq_some.1 (by decide +kernel)
  have unchanged := (registry_sound interrupted).unchanged _ _ _ _ blank
  exact ⟨by decide +kernel, template, source, unchanged⟩

end History
end ScopedCommands.Registry
