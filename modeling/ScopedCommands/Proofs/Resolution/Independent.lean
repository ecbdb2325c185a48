import ScopedCommands.Proofs.Dict
import ScopedCommands.Proofs.Resolution.OnDemand

namespace ScopedCommands

open Outcome

section

variable {ε : Type} {value : Assignment → Except ε String} {entries others : List Assignment}
  {start last : Dict String}

/-- Entries that bring values of their own under different names. -/
theorem foldlM_insert_eq_ok (distinct : (entries.map (·.name)).Nodup) :
    entries.foldlM (fun kept a => (value a).map (kept.insert a.name)) start = .ok last ↔
      (∀ a ∈ entries, ∃ v, value a = .ok v ∧ last.get? a.name = some v) ∧
        ∀ name, name ∉ entries.map (·.name) → last.get? name = start.get? name := by
  induction entries generalizing start with
  | nil =>
    constructor
    · intro same
      cases same
      exact ⟨nofun, fun _ _ => rfl⟩
    · rintro ⟨_, same⟩
      exact congrArg Except.ok (Dict.ext_get? fun name => (same name List.not_mem_nil).symm)
  | cons a rest ih =>
    obtain ⟨new, apart⟩ := List.nodup_cons.1 distinct
    simp only [List.foldlM_cons, bind_eq_ok, map_eq_ok, ih apart]
    constructor
    · rintro ⟨_, ⟨v, has, rfl⟩, each, outside⟩
      have own : last.get? a.name = some v := by
        rw [outside a.name new, Dict.get?_insert, if_pos rfl]
      refine ⟨List.forall_mem_cons.2 ⟨⟨v, has, own⟩, each⟩, fun name other => ?_⟩
      simp only [List.map_cons, List.mem_cons, not_or] at other
      rw [outside name other.2, Dict.get?_insert, if_neg other.1]
    · rintro ⟨all, outside⟩
      obtain ⟨⟨v, has, own⟩, each⟩ := List.forall_mem_cons.1 all
      refine ⟨_, ⟨v, has, rfl⟩, each, fun name other => ?_⟩
      rw [Dict.get?_insert]
      split
      next same => rw [same, own]
      next differ =>
        refine outside name fun listed => ?_
        rcases List.mem_cons.1 listed with same | later
        · exact differ same
        · exact other later

theorem foldlM_insert_perm (distinct : (entries.map (·.name)).Nodup) (order : entries.Perm others)
    (folded : entries.foldlM (fun kept a => (value a).map (kept.insert a.name)) start = .ok last) :
    others.foldlM (fun kept a => (value a).map (kept.insert a.name)) start = .ok last := by
  obtain ⟨each, outside⟩ := (foldlM_insert_eq_ok distinct).1 folded
  refine (foldlM_insert_eq_ok ((order.map _).nodup_iff.1 distinct)).2 ⟨?_, ?_⟩
  · exact fun a member => each a (order.mem_iff.2 member)
  · exact fun name other => outside name fun listed => other ((order.map _).mem_iff.1 listed)

theorem foldlM_insert_sublist (distinct : (entries.map (·.name)).Nodup)
    (part : others.Sublist entries)
    (folded : entries.foldlM (fun kept a => (value a).map (kept.insert a.name)) .empty = .ok last) :
    others.foldlM (fun kept a => (value a).map (kept.insert a.name)) .empty =
      .ok (last.filter fun name _ => name ∈ others.map (·.name)) := by
  obtain ⟨each, outside⟩ := (foldlM_insert_eq_ok distinct).1 folded
  refine (foldlM_insert_eq_ok ((part.map _).nodup distinct)).2 ⟨fun a member => ?_, ?_⟩
  · obtain ⟨v, has, kept⟩ := each a (part.mem member)
    refine ⟨v, has, ?_⟩
    rw [Dict.get?_filter, kept]
    simpa using ⟨a, member, rfl⟩
  · intro name other
    rw [Dict.get?_filter]
    simp [other, Dict.get?_empty]

end

namespace Setting

variable (s : Setting) (label : ScopeLabel) (allowlist : Allowlist) (parents : List Scope)

def imported (a : Assignment) : Except ResolveError String :=
  if allowlist.allows a.value then
    (s.checkSafe label s!"from_env.{a.name}" a.name (s.importValue a)).map fun _ => s.importValue a
  else
    .error (.expansion label.text s!"from_env.{a.name}" (.notAllowed label.text a.name a.value))

def envValue (vars : Dict String) (a : Assignment) : Except ResolveError String := do
  let field := s!"env.{a.name}"
  let value ← (expandIn (s.context label allowlist field) (s.lookup vars parents) a.value).mapError
    (.expansion label.text field)
  (s.checkSafe label field a.name value).map fun _ => value

theorem addImport_eq :
    s.addImport label allowlist = fun vars a =>
      (s.imported label allowlist a).map (vars.insert a.name) := by
  funext vars a
  unfold addImport imported
  split
  · simp only [map_eq_bind, bind_assoc, pure_bind]
    rfl
  · rfl

theorem addEnv_eq (vars : Dict String) :
    s.addEnv label allowlist parents vars = fun env a =>
      (s.envValue label allowlist parents vars a).map (env.insert a.name) := by
  funext env a
  simp only [addEnv, envValue, map_eq_bind, bind_assoc, pure_bind]

variable {s label allowlist parents}

theorem substitutes_of_envValue {vars : Dict String} {a : Assignment} {value : String}
    (brought : s.envValue label allowlist parents vars a = .ok value) :
    Substitutes (s.lookup vars parents) (some ⟨s.environment, allowlist⟩) a.value value := by
  obtain ⟨_, expanded, kept⟩ := bind_eq_ok.1 brought
  obtain ⟨_, _, rfl⟩ := map_eq_ok.1 kept
  exact substitutes_of_expandIn (mapError_eq_ok.1 expanded)

end Setting
end ScopedCommands
