import ScopedCommands.Proofs.Resolution.Siblings

namespace ScopedCommands

inductive Setting.GroupCourse (s : Setting) (templates : Registry) (globals : Scope)
    (g : GroupDecl) : Step ResolvedGroup → Prop where
  | noScope {e : ResolveError} (failed : s.resolveScope (.ofGroup g) [globals] = .error e) :
      GroupCourse s templates globals g ⟨{}, .error e⟩
  | noWorkdir {scope : Scope} {e : ResolveError}
      (resolved : s.resolveScope (.ofGroup g) [globals] = .ok scope)
      (failed : s.expandWorkdir scope [globals] none g.workdir = .error e) :
      GroupCourse s templates globals g
        ⟨Setting.redundantList globals scope ++ s.unsetNames scope, .error e⟩
  | visited {scope : Scope} {workdir : Option String}
      (resolved : s.resolveScope (.ofGroup g) [globals] = .ok scope)
      (expanded : s.expandWorkdir scope [globals] none g.workdir = .ok workdir)
      {commands : List ResolvedCommand}
      (each : commands = g.commands.filterMap fun c =>
        (s.resolveCommand templates ⟨g.name, globals, scope, workdir⟩ c).outcome.toOption) :
      GroupCourse s templates globals g
        ⟨⟨(Setting.redundantList globals scope ++ s.unsetNames scope).warnings ++
            g.commands.flatMap fun c =>
              (s.resolveCommand templates ⟨g.name, globals, scope, workdir⟩ c).findings.warnings,
          g.commands.filterMap fun c => Outcome.error?
            (s.resolveCommand templates ⟨g.name, globals, scope, workdir⟩ c).outcome⟩,
        .ok ⟨g.name, scope, workdir, commands⟩⟩

theorem Setting.resolveGroup_noWorkdir {s : Setting} (templates : Registry) (keepGoing : Bool)
    {globals scope : Scope} {g : GroupDecl} {e : ResolveError}
    (resolved : s.resolveScope (.ofGroup g) [globals] = .ok scope)
    (failed : s.expandWorkdir scope [globals] none g.workdir = .error e) :
    s.resolveGroup templates keepGoing globals g =
      ⟨redundantList globals scope ++ s.unsetNames scope, .error e⟩ := by
  have stopped : s.resolveGroup templates keepGoing globals g =
      ⟨redundantList globals scope ++ s.unsetNames scope ++ {}, .error e⟩ := by
    rw [resolveGroup, resolved, Step.ofExcept_ok_bind, Step.note_bind, failed]
    rfl
  rw [stopped, Findings.append_empty]

theorem Setting.groupCourse_resolveGroup (s : Setting) (templates : Registry) (globals : Scope)
    (g : GroupDecl) :
    s.GroupCourse templates globals g (s.resolveGroup templates true globals g) := by
  cases inner : s.resolveScope (.ofGroup g) [globals] with
  | error e =>
    have stopped : s.resolveGroup templates true globals g = ⟨{}, .error e⟩ := by
      rw [resolveGroup, inner]
      rfl
    rw [stopped]
    exact .noScope inner
  | ok scope =>
    cases directory : s.expandWorkdir scope [globals] none g.workdir with
    | error e =>
      rw [resolveGroup_noWorkdir templates true inner directory]
      exact .noWorkdir inner directory
    | ok workdir =>
      rw [s.resolveGroup_keepGoing templates globals inner directory rfl]
      exact .visited inner directory rfl

namespace Config

variable {c : Config} {templates : Registry} {o : ResolveOptions} {r : Resolution}

/-- What a resolution is made of, group by group. -/
structure Gathered (c : Config) (templates : Registry) (s : Setting) (visited : List GroupDecl)
    (r : Resolution) : Prop where
  outer : s.resolveScope (.ofGlobals c.globals) [] = .ok r.globals
  groups : r.groups = visited.filterMap fun g =>
    (s.resolveGroup templates true r.globals g).outcome.toOption
  warnings : r.warnings = (s.globalFindings r.globals).warnings ++ visited.flatMap fun g =>
    (s.resolveGroup templates true r.globals g).findings.warnings
  failures : r.failures = visited.flatMap fun g =>
    (s.resolveGroup templates true r.globals g).allFailures

theorem resolve_keepGoing_eq_ok (going : o.keepGoing = true) :
    c.resolve templates o = .ok r ↔
      ∃ s, c.checkGroup o.group = .ok () ∧ setting o = .ok s ∧
        c.Gathered templates s (c.groups.filter o.selects) r := by
  rw [resolve_eq_ok]
  constructor
  · rintro ⟨s, globals, groups, selected, set, outer, ran, rfl⟩
    have run := c.run_keepGoing templates going s globals
    rw [run] at ran
    refine ⟨s, selected, set, outer, (Except.ok.inj ran).symm, ?_, ?_⟩
    · rw [run]
    · rw [run]
  · rintro ⟨s, selected, set, outer, groups, warnings, failures⟩
    refine ⟨s, r.globals, r.groups, selected, set, outer, ?_, ?_⟩
    · rw [c.run_keepGoing templates going, groups]
    · rw [c.run_keepGoing templates going]
      simp only [← warnings, ← failures]

/-- Whether or not a run goes on after errors, the resolution that it gives is gathered from all the
groups that it visits; one that does not go on has no failure. -/
theorem resolve_eq_ok_iff_gathered :
    c.resolve templates o = .ok r ↔
      ∃ s, c.checkGroup o.group = .ok () ∧ setting o = .ok s ∧
        c.Gathered templates s (c.groups.filter o.selects) r ∧
        (o.keepGoing = false → r.failures = []) := by
  cases going : o.keepGoing with
  | true =>
    rw [resolve_keepGoing_eq_ok going]
    simp
  | false =>
    have same : { o with keepGoing := false } = o := by
      rw [← going]
    have stopping := c.resolve_stopping templates o
    rw [same] at stopping
    rw [stopping, Outcome.bind_eq_ok]
    constructor
    · rintro ⟨q, given, passed⟩
      obtain ⟨rfl, none⟩ := Resolution.unlessFailed_eq_ok.1 passed
      obtain ⟨s, selected, set, gathered⟩ := (resolve_keepGoing_eq_ok rfl).1 given
      exact ⟨s, selected, set, gathered, fun _ => none⟩
    · rintro ⟨s, selected, set, gathered, none⟩
      have given : c.resolve templates { o with keepGoing := true } = .ok r :=
        (resolve_keepGoing_eq_ok rfl).2 ⟨s, selected, set, gathered⟩
      exact ⟨r, given, Resolution.unlessFailed_eq_ok.2 ⟨rfl, none rfl⟩⟩

theorem gathered_of_resolve (resolved : c.resolve templates o = .ok r) :
    ∃ s, setting o = .ok s ∧ c.Gathered templates s (c.groups.filter o.selects) r := by
  obtain ⟨s, _, set, gathered, _⟩ := resolve_eq_ok_iff_gathered.1 resolved
  exact ⟨s, set, gathered⟩

end Config
end ScopedCommands
