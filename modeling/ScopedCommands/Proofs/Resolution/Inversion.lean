import ScopedCommands.Proofs.Outcome
import ScopedCommands.Resolution.Run

namespace ScopedCommands

open Outcome

theorem Allowlist.allows_resolve_iff {declared : Option (List String)}
    {enclosing : Option Allowlist} {name : String} :
    (Allowlist.resolve declared enclosing).allows name = true ↔
      match declared with
      | .none => ∃ outer, enclosing = some outer ∧ outer.allows name = true
      | .some names => name ∈ names := by
  unfold Allowlist.resolve
  split
  · cases enclosing with
    | none => simp [Allowlist.allows, Dict.contains, Dict.get?_empty]
    | some outer => simp [Allowlist.allows]
  · simp [Allowlist.allows, Dict.contains, Dict.get?_empty]
  · exact NameSet.contains_ofNames _ _

namespace Setting

variable {s : Setting}

theorem resolveScope_eq_ok {d : ScopeDecl} {parents : List Scope} {x : Scope} :
    s.resolveScope d parents = .ok x ↔
      ∃ read imported vars env,
        d.declarations = .ok read ∧
        read.imports.foldlM (s.addImport d.label x.allowlist) .empty = .ok imported ∧
        read.vars.foldlM (s.addVar d.label x.allowlist parents) imported = .ok vars ∧
        read.env.foldlM (s.addEnv d.label x.allowlist parents vars) .empty = .ok env ∧
        x = ⟨d.label, vars, env,
          Allowlist.resolve d.allowlist (parents.head?.map (·.allowlist))⟩ := by
  simp only [resolveScope, bind_eq_ok]
  constructor
  · rintro ⟨read, parsed, imported, first, vars, second, env, third, same⟩
    cases same
    exact ⟨read, imported, vars, env, parsed, first, second, third, rfl⟩
  · rintro ⟨read, imported, vars, env, parsed, first, second, third, rfl⟩
    exact ⟨read, parsed, imported, first, vars, second, env, third, rfl⟩

theorem label_of_resolveScope {d : ScopeDecl} {parents : List Scope} {x : Scope}
    (resolved : s.resolveScope d parents = .ok x) : x.label = d.label := by
  obtain ⟨_, _, _, _, _, _, _, _, rfl⟩ := resolveScope_eq_ok.1 resolved
  rfl

theorem allowlist_of_resolveScope {d : ScopeDecl} {parents : List Scope} {x : Scope}
    (resolved : s.resolveScope d parents = .ok x) :
    x.allowlist = Allowlist.resolve d.allowlist (parents.head?.map (·.allowlist)) := by
  obtain ⟨_, _, _, _, _, _, _, _, rfl⟩ := resolveScope_eq_ok.1 resolved
  rfl

theorem assemble_eq_ok {g : Enclosing} {c : CommandDecl} {raw : RawCommand} {risk : RiskLevel}
    {scope : Scope} {r : ResolvedCommand} :
    s.assemble g c raw risk scope = .ok r ↔
      ∃ cmd args workdir,
        s.expandField scope g.parents "cmd" raw.cmd = .ok cmd ∧
        s.expandArgs scope g.parents 0 raw.args = .ok args ∧
        s.expandWorkdir scope g.parents g.workdir raw.workdir = .ok workdir ∧
        r = ⟨g.group, c.name, cmd, args, (g.globals.env.union g.scope.env).union scope.env, workdir,
          risk, c.template⟩ := by
  simp only [assemble, bind_eq_ok]
  constructor
  · rintro ⟨cmd, first, args, second, workdir, third, same⟩
    cases same
    exact ⟨cmd, args, workdir, first, second, third, rfl⟩
  · rintro ⟨cmd, args, workdir, first, second, third, rfl⟩
    exact ⟨cmd, first, args, second, workdir, third, rfl⟩

theorem resolveCommand_eq_ok {templates : Registry} {g : Enclosing} {c : CommandDecl}
    {r : ResolvedCommand} :
    (s.resolveCommand templates g c).outcome = .ok r ↔
      ∃ raw risk scope,
        c.checkFields g.group = .ok () ∧
        (rawFields templates (g.label c) c).outcome = .ok raw ∧
        RiskLevel.parseDeclared raw.riskLevel = .ok risk ∧
        s.resolveScope (.ofCommand g.group c raw.env) g.parents = .ok scope ∧
        s.assemble g c raw (risk.getD .low) scope = .ok r := by
  simp only [resolveCommand, resolveRaw, Step.bind_eq_ok, Step.ofExcept, Step.note, mapError_eq_ok]
  constructor
  · rintro ⟨_, fields, raw, bound, risk, level, scope, resolved, _, _, assembled⟩
    exact ⟨raw, risk, scope, fields, bound, level, resolved, assembled⟩
  · rintro ⟨raw, risk, scope, fields, bound, level, resolved, assembled⟩
    exact ⟨(), fields, raw, bound, risk, level, scope, resolved, (), trivial, assembled⟩

theorem resolveGroup_eq_ok {templates : Registry} {keepGoing : Bool} {globals : Scope}
    {g : GroupDecl} {r : ResolvedGroup} :
    (s.resolveGroup templates keepGoing globals g).outcome = .ok r ↔
      ∃ scope workdir commands,
        s.resolveScope (.ofGroup g) [globals] = .ok scope ∧
        s.expandWorkdir scope [globals] none g.workdir = .ok workdir ∧
        (Step.collect keepGoing (s.resolveCommand templates ⟨g.name, globals, scope, workdir⟩)
          g.commands).outcome = .ok commands ∧
        r = ⟨g.name, scope, workdir, commands⟩ := by
  simp only [resolveGroup, Step.bind_eq_ok, Step.ofExcept, Step.note]
  constructor
  · rintro ⟨scope, resolved, _, _, workdir, expanded, commands, collected, same⟩
    cases same
    exact ⟨scope, workdir, commands, resolved, expanded, collected, rfl⟩
  · rintro ⟨scope, workdir, commands, resolved, expanded, collected, rfl⟩
    exact ⟨scope, resolved, (), trivial, workdir, expanded, commands, collected, rfl⟩

end Setting

def Resolution.ofRun (globals : Scope) (run : Step (List ResolvedGroup)) :
    Except ResolveError Resolution :=
  run.outcome.map fun groups => ⟨globals, groups, run.findings.warnings, run.findings.failures⟩

namespace Config

def run (c : Config) (templates : Registry) (o : ResolveOptions) (s : Setting) (globals : Scope) :
    Step (List ResolvedGroup) :=
  (Step.note (s.globalFindings globals)).bind fun () =>
    Step.collect o.keepGoing (s.resolveGroup templates o.keepGoing globals)
      (c.groups.filter o.selects)

theorem resolveWith_eq (c : Config) (templates : Registry) (o : ResolveOptions) (s : Setting) :
    c.resolveWith templates o s = (s.resolveScope (.ofGlobals c.globals) [] >>= fun globals =>
      Resolution.ofRun globals (c.run templates o s globals)) := rfl

/-- What a run that goes on after errors finds, group by group. -/
theorem run_keepGoing (c : Config) (templates : Registry) {o : ResolveOptions}
    (going : o.keepGoing = true) (s : Setting) (globals : Scope) :
    c.run templates o s globals =
      ⟨⟨(s.globalFindings globals).warnings ++ (c.groups.filter o.selects).flatMap fun g =>
            (s.resolveGroup templates true globals g).findings.warnings,
          (c.groups.filter o.selects).flatMap fun g =>
            (s.resolveGroup templates true globals g).allFailures⟩,
        .ok ((c.groups.filter o.selects).filterMap fun g =>
          (s.resolveGroup templates true globals g).outcome.toOption)⟩ := by
  unfold run
  rw [going, Step.collect_keepGoing]
  simp only [Step.bind, Step.note]
  rw [Findings.append_of_failures_eq_nil (s.failures_globalFindings globals)]

theorem setting_eq_ok {o : ResolveOptions} {s : Setting} :
    setting o = .ok s ↔
      ∃ safeguard, Safeguard.compile o.rules o.matcher = .ok safeguard ∧
        s = ⟨safeguard, o.environment, o.automatic⟩ := by
  unfold setting
  cases Safeguard.compile o.rules o.matcher with
  | error e => simp
  | ok safeguard => simp [eq_comm]

theorem resolve_eq_ok {c : Config} {templates : Registry} {o : ResolveOptions} {r : Resolution} :
    c.resolve templates o = .ok r ↔
      ∃ s globals groups,
        c.checkGroup o.group = .ok () ∧
        setting o = .ok s ∧
        s.resolveScope (.ofGlobals c.globals) [] = .ok globals ∧
        (c.run templates o s globals).outcome = .ok groups ∧
        r = ⟨globals, groups, (c.run templates o s globals).findings.warnings,
          (c.run templates o s globals).findings.failures⟩ := by
  simp only [resolve, resolveWith_eq, Resolution.ofRun, bind_eq_ok, map_eq_ok]
  constructor
  · rintro ⟨_, selected, s, set, globals, resolved, groups, collected, rfl⟩
    exact ⟨s, globals, groups, selected, set, resolved, collected, rfl⟩
  · rintro ⟨s, globals, groups, selected, set, resolved, collected, rfl⟩
    exact ⟨(), selected, s, set, globals, resolved, groups, collected, rfl⟩

end Config
end ScopedCommands
