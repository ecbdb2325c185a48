import Mathlib.Data.List.Basic
import ScopedCommands.Proofs.Resolution.KeepGoing

namespace ScopedCommands

def ResolveOptions.exhaustive (o : ResolveOptions) : ResolveOptions :=
  { o with keepGoing := true, group := none }

/-- Runs over the same global scope put one after another. The warnings that all of them start
with are taken once. -/
def Resolution.join (globals : Scope) (first : List Warning) (runs : List Resolution) :
    Resolution where
  globals := globals
  groups := runs.flatMap (·.groups)
  warnings := first ++ runs.flatMap fun r => r.warnings.drop first.length
  failures := runs.flatMap (·.failures)

namespace Setting

variable (s : Setting) (templates : Registry) (globals : Scope)

def alone (g : GroupDecl) : Resolution where
  globals := globals
  groups := (s.resolveGroup templates true globals g).outcome.toOption.toList
  warnings := (s.globalFindings globals).warnings ++
    (s.resolveGroup templates true globals g).findings.warnings
  failures := (s.resolveGroup templates true globals g).allFailures

theorem allFailures_resolveCommand (around : Enclosing) (c : CommandDecl) :
    (s.resolveCommand templates around c).allFailures =
      (Outcome.error? (s.resolveCommand templates around c).outcome).toList := by
  rw [Step.allFailures, s.failures_resolveCommand templates around c, List.nil_append]

theorem resolveGroup_keepGoing {g : GroupDecl} {scope : Scope} {workdir : Option String}
    (resolved : s.resolveScope (.ofGroup g) [globals] = .ok scope)
    (expanded : s.expandWorkdir scope [globals] none g.workdir = .ok workdir)
    {around : Enclosing} (encloses : around = ⟨g.name, globals, scope, workdir⟩) :
    s.resolveGroup templates true globals g =
      ⟨⟨(redundantList globals scope ++ s.unsetNames scope).warnings ++ g.commands.flatMap fun c =>
            (s.resolveCommand templates around c).findings.warnings,
          g.commands.filterMap fun c =>
            Outcome.error? (s.resolveCommand templates around c).outcome⟩,
        .ok ⟨g.name, scope, workdir, g.commands.filterMap fun c =>
          (s.resolveCommand templates around c).outcome.toOption⟩⟩ := by
  unfold resolveGroup
  rw [resolved, Step.ofExcept_ok_bind, Step.note_bind, expanded, Step.ofExcept_ok_bind, ← encloses,
    Step.collect_keepGoing, Step.bind_pure_of_ok rfl,
    Findings.append_of_failures_eq_nil (by simp)]
  simp only [allFailures_resolveCommand, List.filterMap_eq_flatMap_toList]

end Setting

namespace Config

variable (c : Config) (templates : Registry) (o : ResolveOptions)

theorem filter_selects_exhaustive (groups : List GroupDecl) :
    groups.filter o.exhaustive.selects = groups :=
  List.filter_eq_self.2 fun _ _ => rfl

theorem resolve_exhaustive {s : Setting} {globals : Scope} (set : setting o = .ok s)
    (outer : s.resolveScope (.ofGlobals c.globals) [] = .ok globals) (groups : List GroupDecl) :
    ({ c with groups } : Config).resolve templates o.exhaustive =
      .ok (.join globals (s.globalFindings globals).warnings
        (groups.map (s.alone templates globals))) := by
  have same : setting o.exhaustive = .ok s := set
  refine resolve_eq_ok.2 ⟨s, globals,
    groups.filterMap fun g => (s.resolveGroup templates true globals g).outcome.toOption,
    rfl, same, outer, ?_, ?_⟩
  · rw [run_keepGoing _ templates rfl, filter_selects_exhaustive]
  · rw [run_keepGoing _ templates rfl, filter_selects_exhaustive]
    simp only [Resolution.join, List.flatMap_map, Setting.alone, List.drop_left,
      List.filterMap_eq_flatMap_toList]

theorem resolve_alone {s : Setting} {globals : Scope} (set : setting o = .ok s)
    (outer : s.resolveScope (.ofGlobals c.globals) [] = .ok globals) (g : GroupDecl) :
    ({ c with groups := [g] } : Config).resolve templates o.exhaustive =
      .ok (s.alone templates globals g) := by
  rw [c.resolve_exhaustive templates o set outer]
  simp [Resolution.join, Setting.alone]

theorem filter_selects_only (name : String) (groups : List GroupDecl) :
    groups.filter { o with group := some name }.selects = groups.filter (·.name = name) := rfl

theorem resolve_group_eq_filter {name : String} (found : c.groups.any (·.name = name) = true) :
    c.resolve templates { o with group := some name } =
      ({ c with groups := c.groups.filter (·.name = name) } : Config).resolve templates
        { o with group := none } := by
  have selected : c.checkGroup (some name) = .ok () := by
    rw [checkGroup, if_pos found]
  have all : (c.groups.filter (·.name = name)).filter
      ({ o with group := none } : ResolveOptions).selects = c.groups.filter (·.name = name) :=
    List.filter_eq_self.2 fun _ _ => rfl
  have run (s : Setting) (globals : Scope) :
      c.run templates { o with group := some name } s globals =
        ({ c with groups := c.groups.filter (·.name = name) } : Config).run templates
          { o with group := none } s globals := by
    unfold Config.run
    rw [all, filter_selects_only]
  change (c.checkGroup (some name) >>= fun _ => setting o >>= fun s =>
      c.resolveWith templates { o with group := some name } s) =
    setting o >>= fun s => ({ c with groups := c.groups.filter (·.name = name) } : Config).resolveWith
      templates { o with group := none } s
  simp only [resolveWith_eq, run]
  rw [selected]
  rfl

theorem alone_commands (s : Setting) (globals : Scope) {g : GroupDecl} {group : ResolvedGroup}
    (member : group ∈ (s.alone templates globals g).groups) :
    ∃ (first : List Warning) (around : Enclosing), ∀ commands,
      s.alone templates globals { g with commands } =
        { globals
          groups := [{ group with
            commands := commands.filterMap fun x =>
              (s.resolveCommand templates around x).outcome.toOption }]
          warnings := first ++ commands.flatMap fun x =>
            (s.resolveCommand templates around x).findings.warnings
          failures := commands.filterMap fun x =>
            Outcome.error? (s.resolveCommand templates around x).outcome } := by
  have resolved := Outcome.toOption_eq_some.1 (Option.mem_toList.1 member)
  obtain ⟨scope, workdir, _, own, expanded, _, rfl⟩ := Setting.resolveGroup_eq_ok.1 resolved
  refine ⟨(s.globalFindings globals).warnings ++
    (Setting.redundantList globals scope ++ s.unsetNames scope).warnings,
    ⟨g.name, globals, scope, workdir⟩, fun commands => ?_⟩
  have step := s.resolveGroup_keepGoing templates globals (g := { g with commands }) own expanded rfl
  rw [Setting.alone, step, Step.allFailures_of_ok rfl, List.append_assoc]
  rfl

/-- Runs over several groups are runs over the single ones, commands of a group do not matter to
each other, and the only selected groups might as well be the only ones. -/
theorem resolve_siblings_independent :
    (∀ s globals, setting o = .ok s → s.resolveScope (.ofGlobals c.globals) [] = .ok globals →
      ∃ alone : GroupDecl → Resolution,
        (∀ g, ({ c with groups := [g] } : Config).resolve templates o.exhaustive = .ok (alone g) ∧
          (alone g).globals = globals ∧
          (s.globalFindings globals).warnings <+: (alone g).warnings) ∧
        (∀ groups, ({ c with groups } : Config).resolve templates o.exhaustive =
          .ok (.join globals (s.globalFindings globals).warnings (groups.map alone))) ∧
        ∀ g group, group ∈ (alone g).groups →
          ∃ (first : List Warning) (outcome : CommandDecl → Except ResolveError ResolvedCommand)
            (noted : CommandDecl → List Warning),
            ∀ commands, alone { g with commands } =
              { globals
                groups := [{ group with
                  commands := commands.filterMap fun x => (outcome x).toOption }]
                warnings := first ++ commands.flatMap noted
                failures := commands.filterMap fun x => Outcome.error? (outcome x) }) ∧
    ∀ name, c.groups.any (·.name = name) = true →
      c.resolve templates { o with group := some name } =
        ({ c with groups := c.groups.filter (·.name = name) } : Config).resolve templates
          { o with group := none } := by
  refine ⟨fun s globals set outer => ⟨s.alone templates globals, fun g => ?_, ?_, ?_⟩, ?_⟩
  · exact ⟨c.resolve_alone templates o set outer g, rfl, List.prefix_append _ _⟩
  · exact c.resolve_exhaustive templates o set outer
  · intro g group member
    obtain ⟨first, around, each⟩ := alone_commands templates s globals member
    exact ⟨first, _, _, each⟩
  · exact fun name found => c.resolve_group_eq_filter templates o found

theorem resolve_siblings_independent_broken :
    ∃ globals first runs,
      broken.resolve .empty { keepGoing := true } = .ok (.join globals first runs) ∧
      broken.groups.map (fun g => ({ broken with groups := [g] } : Config).resolve .empty
        { keepGoing := true }) = runs.map .ok := by
  have ran : (broken.resolve .empty { keepGoing := true }).toOption.isSome = true := by
    decide +kernel
  obtain ⟨r, given⟩ := Option.isSome_iff_exists.1 ran
  obtain ⟨s, globals, _, _, set, outer, _⟩ :=
    resolve_eq_ok.1 (Outcome.toOption_eq_some.1 given)
  obtain ⟨alone, single, together, _⟩ :=
    (broken.resolve_siblings_independent .empty {}).1 s globals set outer
  refine ⟨globals, _, broken.groups.map alone, together broken.groups, ?_⟩
  rw [List.map_map]
  exact List.map_congr_left fun g _ => (single g).1

end Config
end ScopedCommands
