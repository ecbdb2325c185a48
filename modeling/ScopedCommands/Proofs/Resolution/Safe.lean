import ScopedCommands.Proofs.Resolution.Inversion
import ScopedCommands.Proofs.Safety.Checking

/-!
No unsafe value survives a resolution. Each value is checked as a whole before it is kept, so the
parts that it was put together from do not matter; what follows keeps values or joins maps of them.
-/
namespace ScopedCommands

namespace Dict

variable {α : Type} {d e : Dict α}

theorem mem_values_insert {key : String} {value v : α} (h : v ∈ (d.insert key value).values) :
    v = value ∨ v ∈ d.values := by
  obtain ⟨entry, member, rfl⟩ := List.mem_map.1 h
  rcases mem_insertEntry member with rfl | old
  · exact .inl rfl
  · exact .inr (List.mem_map_of_mem old)

theorem mem_values_union {v : α} (h : v ∈ (d.union e).values) : v ∈ d.values ∨ v ∈ e.values := by
  unfold union at h
  unfold values at h ⊢
  generalize e.entries = added at h ⊢
  induction added generalizing d with
  | nil => exact .inl h
  | cons entry rest ih =>
    rcases ih h with old | later
    · rcases mem_values_insert old with rfl | kept
      · exact .inr (by simp)
      · exact .inl kept
    · exact .inr (by simp [later])

end Dict

/-- No enabled rule has a pattern that occurs in the value, and every enabled rule has one. -/
def RuleSet.Accepts (set : RuleSet) (value : String) (matcher : Matcher := Pattern.matcher) :
    Prop :=
  ∀ rule ∈ set.enabled, ∃ occurs, matcher rule.pattern = some occurs ∧ occurs value = false

namespace Safeguard

variable {g : Safeguard}

theorem Clears.accepts {set : RuleSet} {matcher : Matcher} {value : String}
    (compiled : compile set matcher = .ok g) (clear : g.Clears value) :
    set.Accepts value matcher := by
  intro rule enabled
  obtain ⟨order, patterns⟩ := compile_eq_ok compiled
  rw [← order] at enabled
  obtain ⟨r, member, rfl⟩ := List.mem_map.1 enabled
  exact ⟨r.2, patterns r member, clear r member⟩

def ClearsAll (g : Safeguard) (d : Dict String) : Prop := ∀ value ∈ d.values, g.Clears value

theorem clearsAll_empty : g.ClearsAll .empty := fun _ member => by cases member

theorem ClearsAll.insert {d : Dict String} {name value : String} (h : g.ClearsAll d)
    (clear : g.Clears value) : g.ClearsAll (d.insert name value) := by
  intro v member
  rcases Dict.mem_values_insert member with rfl | old
  · exact clear
  · exact h v old

theorem ClearsAll.union {d e : Dict String} (h : g.ClearsAll d) (k : g.ClearsAll e) :
    g.ClearsAll (d.union e) := by
  intro v member
  rcases Dict.mem_values_union member with first | second
  · exact h v first
  · exact k v second

end Safeguard

def Scope.values (x : Scope) : List String := x.vars.values ++ x.env.values

def ResolvedGroup.values (g : ResolvedGroup) : List String :=
  g.scope.values ++ g.commands.flatMap (·.env.values)

def Resolution.values (r : Resolution) : List String :=
  r.globals.values ++ r.groups.flatMap ResolvedGroup.values

namespace Setting

open Outcome

variable {s : Setting} {label : ScopeLabel} {allowlist : Allowlist} {parents : List Scope}
  {vars : Dict String}

/-- The one way in which a value gets into a map. -/
theorem clearsAll_of_kept {field name value : String} {next : Dict String}
    (kept : (do s.checkSafe label field name value; return vars.insert name value) = .ok next)
    (h : s.safeguard.ClearsAll vars) : s.safeguard.ClearsAll next := by
  obtain ⟨_, checked, same⟩ := bind_eq_ok.1 kept
  cases same
  exact h.insert (Safeguard.check_eq_ok_iff.1 (mapError_eq_ok.1 checked))

theorem clearsAll_addImport {a : Assignment} {next : Dict String} (h : s.safeguard.ClearsAll vars)
    (added : s.addImport label allowlist vars a = .ok next) : s.safeguard.ClearsAll next := by
  unfold addImport at added
  split at added
  · exact clearsAll_of_kept added h
  · cases added

theorem clearsAll_addVar {a : Assignment} {next : Dict String} (h : s.safeguard.ClearsAll vars)
    (added : s.addVar label allowlist parents vars a = .ok next) : s.safeguard.ClearsAll next := by
  obtain ⟨value, _, kept⟩ := bind_eq_ok.1 added
  exact clearsAll_of_kept kept h

theorem clearsAll_addEnv {env : Dict String} {a : Assignment} {next : Dict String}
    (h : s.safeguard.ClearsAll env)
    (added : s.addEnv label allowlist parents vars env a = .ok next) :
    s.safeguard.ClearsAll next := by
  obtain ⟨value, _, kept⟩ := bind_eq_ok.1 added
  exact clearsAll_of_kept kept h

theorem clearsAll_resolveScope {d : ScopeDecl} {x : Scope} (h : s.resolveScope d parents = .ok x) :
    s.safeguard.ClearsAll x.vars ∧ s.safeguard.ClearsAll x.env := by
  obtain ⟨read, imported, vars, env, _, first, second, third, rfl⟩ := resolveScope_eq_ok.1 h
  have imports := foldlM_invariant s.safeguard.ClearsAll (fun _ _ _ => clearsAll_addImport) _
    Safeguard.clearsAll_empty first
  constructor
  · exact foldlM_invariant _ (fun _ _ _ => clearsAll_addVar) _ imports second
  · exact foldlM_invariant _ (fun _ _ _ => clearsAll_addEnv) _ Safeguard.clearsAll_empty third

theorem clears_values_resolveScope {d : ScopeDecl} {x : Scope}
    (h : s.resolveScope d parents = .ok x) : ∀ value ∈ x.values, s.safeguard.Clears value := by
  have kept := clearsAll_resolveScope h
  intro value member
  rcases List.mem_append.1 member with inVars | inEnv
  · exact kept.1 value inVars
  · exact kept.2 value inEnv

theorem clearsAll_resolveCommand {templates : Registry} {g : Enclosing} {c : CommandDecl}
    {r : ResolvedCommand} (h : (s.resolveCommand templates g c).outcome = .ok r)
    (globals : s.safeguard.ClearsAll g.globals.env) (group : s.safeguard.ClearsAll g.scope.env) :
    s.safeguard.ClearsAll r.env := by
  obtain ⟨raw, risk, scope, _, _, _, resolved, assembled⟩ := resolveCommand_eq_ok.1 h
  obtain ⟨cmd, args, workdir, _, _, _, rfl⟩ := assemble_eq_ok.1 assembled
  exact (globals.union group).union (clearsAll_resolveScope resolved).2

theorem clears_values_resolveGroup {templates : Registry} {keepGoing : Bool} {globals : Scope}
    {g : GroupDecl} {r : ResolvedGroup}
    (h : (s.resolveGroup templates keepGoing globals g).outcome = .ok r)
    (outer : s.safeguard.ClearsAll globals.env) :
    ∀ value ∈ r.values, s.safeguard.Clears value := by
  obtain ⟨scope, workdir, commands, resolved, _, collected, rfl⟩ := resolveGroup_eq_ok.1 h
  intro value member
  rcases List.mem_append.1 member with own | inside
  · exact clears_values_resolveScope resolved value own
  · obtain ⟨command, listed, stored⟩ := List.mem_flatMap.1 inside
    obtain ⟨c, _, made⟩ := Step.mem_of_collect_eq_ok collected listed
    exact clearsAll_resolveCommand made outer (clearsAll_resolveScope resolved).2 value stored

end Setting

namespace Config

/-- The values of a resolution break none of the enabled rules, whatever they were made of. -/
theorem resolve_values_accepted {c : Config} {templates : Registry} {o : ResolveOptions}
    {r : Resolution} (resolved : c.resolve templates o = .ok r) :
    ∃ safeguard, Safeguard.compile o.rules o.matcher = .ok safeguard ∧
      ∀ value ∈ r.values,
        o.rules.Accepts value o.matcher ∧ ∀ name, safeguard.check name value = .ok () := by
  obtain ⟨s, globals, groups, _, set, outer, ran, rfl⟩ := resolve_eq_ok.1 resolved
  obtain ⟨safeguard, compiled, rfl⟩ := setting_eq_ok.1 set
  refine ⟨safeguard, compiled, ?_⟩
  have clear : ∀ value ∈ globals.values ++ groups.flatMap ResolvedGroup.values,
      safeguard.Clears value := by
    intro value member
    rcases List.mem_append.1 member with own | inside
    · exact Setting.clears_values_resolveScope outer value own
    · obtain ⟨group, listed, stored⟩ := List.mem_flatMap.1 inside
      obtain ⟨_, _, collected⟩ := Step.bind_eq_ok.1 ran
      obtain ⟨g, _, made⟩ := Step.mem_of_collect_eq_ok collected listed
      exact Setting.clears_values_resolveGroup made (Setting.clearsAll_resolveScope outer).2 value
        stored
  intro value member
  exact ⟨(clear value member).accepts compiled,
    fun name => Safeguard.check_eq_ok_iff.2 (clear value member)⟩

/-- Both groups put `B` together from parts that are safe; in the first one it is not. -/
def chained : Config where
  globals := { allowlist := some ["HOME"], imports := ["BASE=HOME"], vars := ["BIN=%{BASE}/bin"] }
  groups := [
    { name := "refused", vars := ["A=a&", "B=%{A}&b"] },
    { name := "kept"
      vars := ["A=a&", "B=%{A}b"]
      commands := [{ name := "run", cmd := some "run", env := some ["PATH=%{BIN}:%{HOME}"] }] }]

theorem resolve_values_accepted_chained :
    ∃ r, chained.resolve .empty
        { keepGoing := true, environment := Dict.ofList [("HOME", "/root")] } = .ok r ∧
      (r.values, r.failures.length) =
        (["/root", "/root/bin", "a&", "a&b", "/root/bin:/root"], 1) ∧
      ∃ safeguard, Safeguard.compile .standard = .ok safeguard ∧
        ∀ value ∈ r.values,
          RuleSet.standard.Accepts value ∧ ∀ name, safeguard.check name value = .ok () := by
  have ran : (chained.resolve .empty
      { keepGoing := true, environment := Dict.ofList [("HOME", "/root")] }).toOption.map
        (fun r => (r.values, r.failures.length)) =
      some (["/root", "/root/bin", "a&", "a&b", "/root/bin:/root"], 1) := by
    decide +kernel
  obtain ⟨r, given, found⟩ := Option.map_eq_some_iff.1 ran
  have resolved := Outcome.toOption_eq_some.1 given
  exact ⟨r, resolved, found, resolve_values_accepted resolved⟩

end Config
end ScopedCommands
