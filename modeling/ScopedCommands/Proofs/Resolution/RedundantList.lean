import ScopedCommands.Proofs.Expansion.Consulted
import ScopedCommands.Proofs.Resolution.Warnings

/-!
A redundant list can be left out. Of an allowlist nothing counts but its names, and a group without
a list of its own has those of the global one: so its resolution, and that of its commands, is what
it was, and only the warnings about the list go away.
-/
namespace ScopedCommands

def Context.seeing (ctx : Context) (env : External) : Context := { ctx with external := some env }

theorem Context.enter_seeing (ctx : Context) (env : External) (name : String) :
    (ctx.seeing env).enter name = (ctx.enter name).map (·.seeing env) :=
  ctx.enter_before (some env) name

section

variable {values : Dict String} {a b : Allowlist}

theorem Allowlist.allows_congr (same : a.names = b.names) (name : String) :
    a.allows name = b.allows name := by
  rw [Allowlist.allows, same, Allowlist.allows]

theorem expandIn_seeing (same : a.names = b.names) (ctx : Context) (lookup : Lookup) (raw : String) :
    expandIn (ctx.seeing ⟨values, a⟩) lookup raw = expandIn (ctx.seeing ⟨values, b⟩) lookup raw := by
  have views : Option.Rel (External.AlikeOn fun _ => True) (some ⟨values, a⟩) (some ⟨values, b⟩) :=
    .some ⟨fun name _ => Allowlist.allows_congr same name, fun _ _ => rfl⟩
  exact expandIn_congr (fun _ _ _ _ _ _ => trivial) (fun _ _ => rfl) views ctx fun _ _ => trivial

namespace Setting

variable (s : Setting) (label : ScopeLabel) (same : a.names = b.names)

include same

theorem expandIn_context (field : String) (lookup : Lookup) (raw : String) :
    expandIn (s.context label a field) lookup raw = expandIn (s.context label b field) lookup raw :=
  expandIn_seeing same ⟨label.text, field, none, .empty, 0⟩ lookup raw

theorem addImport_names : s.addImport label a = s.addImport label b := by
  funext vars x
  unfold addImport
  rw [Allowlist.allows_congr same]

theorem addVar_names (parents : List Scope) : s.addVar label a parents = s.addVar label b parents := by
  funext vars x
  have value : s.expandVar label a parents vars x = s.expandVar label b parents vars x := by
    let ctx : Context := ⟨label.text, s!"vars.{x.name}", none, .empty, 0⟩
    have first : s.context label a s!"vars.{x.name}" = ctx.seeing ⟨s.environment, a⟩ := rfl
    have second : s.context label b s!"vars.{x.name}" = ctx.seeing ⟨s.environment, b⟩ := rfl
    unfold expandVar
    rw [first, second, Context.enter_seeing, Context.enter_seeing]
    cases ctx.enter x.name with
    | error e => rfl
    | ok inner => exact expandIn_seeing same inner (s.lookup vars parents) x.value
  unfold addVar
  rw [value]

theorem addEnv_names (parents : List Scope) (vars : Dict String) :
    s.addEnv label a parents vars = s.addEnv label b parents vars := by
  funext env x
  unfold addEnv
  simp only [s.expandIn_context label same]

end Setting
end

/-- The names are the same, and come from outside. -/
def Scope.inheriting (x : Scope) : Scope :=
  { x with allowlist := ⟨.inherited, x.allowlist.names⟩ }

def ResolvedGroup.inheriting (g : ResolvedGroup) : ResolvedGroup :=
  { g with scope := g.scope.inheriting }

def GroupDecl.withoutList (g : GroupDecl) : GroupDecl := { g with allowlist := none }

namespace Setting

variable {s : Setting} {outer scope : Scope}

theorem resolveScope_withoutList {d : ScopeDecl} {parents : List Scope}
    (resolved : s.resolveScope d parents = .ok scope)
    (same : (Allowlist.resolve none (parents.head?.map (·.allowlist))).names = scope.allowlist.names) :
    s.resolveScope { d with allowlist := none } parents = .ok scope.inheriting := by
  obtain ⟨read, imported, vars, env, declared, first, second, third, shape⟩ :=
    resolveScope_eq_ok.1 resolved
  have names : scope.inheriting.allowlist.names = scope.allowlist.names := rfl
  rw [← s.addImport_names d.label names] at first
  rw [← s.addVar_names d.label names] at second
  rw [← s.addEnv_names d.label names] at third
  apply resolveScope_eq_ok.2
  refine ⟨read, imported, vars, env, declared, first, second, third, ?_⟩
  unfold Scope.inheriting
  rw [← same, shape]
  rfl

theorem resolve_inheriting (declared : Option (List String)) (x : Scope) :
    Allowlist.resolve declared (some x.inheriting.allowlist) =
      Allowlist.resolve declared (some x.allowlist) := by
  rcases declared with _ | _ | ⟨first, rest⟩ <;> rfl

theorem resolveScope_inheriting (d : ScopeDecl) (x : Scope) :
    s.resolveScope d [x.inheriting, outer] = s.resolveScope d [x, outer] := by
  unfold resolveScope
  simp only [List.head?_cons, Option.map_some, resolve_inheriting]
  rfl

theorem expandField_inheriting (scope x : Scope) :
    s.expandField scope [x.inheriting, outer] = s.expandField scope [x, outer] := rfl

theorem expandArgs_inheriting (scope x : Scope) (index : Nat) (args : List String) :
    s.expandArgs scope [x.inheriting, outer] index args = s.expandArgs scope [x, outer] index args := by
  induction args generalizing index with
  | nil => rfl
  | cons raw rest ih =>
    unfold expandArgs
    rw [expandField_inheriting, ih]

theorem assemble_inheriting (group : String) (workdir : Option String) (x : Scope) (c : CommandDecl)
    (raw : RawCommand) (risk : RiskLevel) (scope : Scope) :
    s.assemble ⟨group, outer, x.inheriting, workdir⟩ c raw risk scope =
      s.assemble ⟨group, outer, x, workdir⟩ c raw risk scope := by
  unfold assemble Enclosing.parents
  rw [expandField_inheriting, expandArgs_inheriting]
  rfl

theorem resolveCommand_inheriting (templates : Registry) (group : String) (workdir : Option String)
    (x : Scope) (c : CommandDecl) :
    s.resolveCommand templates ⟨group, outer, x.inheriting, workdir⟩ c =
      s.resolveCommand templates ⟨group, outer, x, workdir⟩ c := by
  unfold resolveCommand resolveRaw Enclosing.parents
  simp only [resolveScope_inheriting, assemble_inheriting]
  rfl

theorem expandWorkdir_inheriting (x : Scope) (parents : List Scope) (inherited own : Option String) :
    s.expandWorkdir x.inheriting parents inherited own = s.expandWorkdir x parents inherited own := by
  cases own with
  | none => rfl
  | some raw =>
    have names : x.inheriting.allowlist.names = x.allowlist.names := rfl
    have value := s.expandIn_context x.label names "workdir" (s.lookup x.vars parents) raw
    exact congrArg
      (fun v => (v.mapError (ResolveError.expansion x.label.text "workdir")).map some) value

end Setting

structure Step.SameButList (here there : Step ResolvedGroup) (gone : List Warning) : Prop where
  warnings : here.findings.warnings = gone ++ there.findings.warnings
  failures : there.allFailures = here.allFailures
  outcome : there.outcome = here.outcome.map ResolvedGroup.inheriting

namespace Setting

variable {s : Setting} {outer scope : Scope}

def listWarnings (s : Setting) (scope : Scope) : List Warning :=
  .redundantAllowlist scope.label.text :: (s.unsetNames scope).warnings

theorem resolveGroup_withoutList (templates : Registry) {g : GroupDecl}
    (resolved : s.resolveScope (.ofGroup g) [outer] = .ok scope)
    (repeats : scope.allowlist.mode = .explicit ∧ scope.allowlist = outer.allowlist) :
    (s.resolveGroup templates true outer g).SameButList
      (s.resolveGroup templates true outer g.withoutList) (s.listWarnings scope) := by
  have names : (Allowlist.resolve none (some outer.allowlist)).names = scope.allowlist.names := by
    rw [repeats.2]
    rfl
  have inherited : s.resolveScope (.ofGroup g.withoutList) [outer] = .ok scope.inheriting :=
    resolveScope_withoutList resolved names
  have listed : redundantList outer scope ++ s.unsetNames scope = ⟨s.listWarnings scope, []⟩ := by
    rw [redundantList, if_pos repeats, Findings.append_of_failures_eq_nil rfl,
      s.failures_unsetNames scope]
    rfl
  have silent : redundantList outer scope.inheriting ++ s.unsetNames scope.inheriting = {} := rfl
  have same := s.expandWorkdir_inheriting scope [outer] none g.workdir
  cases directory : s.expandWorkdir scope [outer] none g.workdir with
  | error e =>
    rw [directory] at same
    rw [resolveGroup_noWorkdir templates true resolved directory,
      resolveGroup_noWorkdir templates true inherited same, listed, silent]
    exact ⟨(List.append_nil _).symm, rfl, rfl⟩
  | ok workdir =>
    rw [directory] at same
    rw [s.resolveGroup_keepGoing templates outer resolved directory rfl,
      s.resolveGroup_keepGoing templates outer inherited same rfl, listed, silent]
    simp only [GroupDecl.withoutList, resolveCommand_inheriting]
    exact ⟨rfl, rfl, rfl⟩

end Setting

/-- The same but for the list of a group of that name, which is inherited there, and the warnings
that go with it. -/
structure Resolution.SameButList (here there : Resolution) (name : String) (gone : List Warning) :
    Prop where
  globals : there.globals = here.globals
  groups : ∃ before own after, here.groups = before ++ own ++ after ∧
    there.groups = before ++ own.map ResolvedGroup.inheriting ++ after ∧
    own.length ≤ 1 ∧ ∀ x ∈ own, x.name = name
  commands : there.commands = here.commands
  warnings : ∃ before after, here.warnings = before ++ gone ++ after ∧
    there.warnings = before ++ after
  failures : there.failures = here.failures

theorem Resolution.sameButList_of_groups {here there : Resolution} {name : String}
    {gone : List Warning} (globals : there.globals = here.globals)
    {before own after : List ResolvedGroup} (first : here.groups = before ++ own ++ after)
    (second : there.groups = before ++ own.map ResolvedGroup.inheriting ++ after)
    (single : own.length ≤ 1) (named : ∀ x ∈ own, x.name = name)
    (warnings : ∃ before after, here.warnings = before ++ gone ++ after ∧
      there.warnings = before ++ after)
    (failures : there.failures = here.failures) : here.SameButList there name gone := by
  refine ⟨globals, ⟨before, own, after, first, second, single, named⟩, ?_, warnings, failures⟩
  simp only [commands, first, second, List.flatMap_append, List.flatMap_map]
  rfl

namespace Config

variable {c : Config} {templates : Registry} {s : Setting} {r : Resolution}

def withGroups (c : Config) (groups : List GroupDecl) : Config := { c with groups }

theorem gathered_withoutList {first last : List GroupDecl} {g : GroupDecl} {scope : Scope}
    (gathered : c.Gathered templates s (first ++ g :: last) r)
    (resolved : s.resolveScope (.ofGroup g) [r.globals] = .ok scope)
    (repeats : scope.allowlist.mode = .explicit ∧ scope.allowlist = r.globals.allowlist)
    (groups : List GroupDecl) :
    ∃ there, (c.withGroups groups).Gathered templates s (first ++ g.withoutList :: last) there ∧
      r.SameButList there g.name (s.listWarnings scope) := by
  have same := s.resolveGroup_withoutList templates resolved repeats
  let value (g : GroupDecl) := (s.resolveGroup templates true r.globals g).outcome.toOption
  let noted (g : GroupDecl) := (s.resolveGroup templates true r.globals g).findings.warnings
  let failed (g : GroupDecl) := (s.resolveGroup templates true r.globals g).allFailures
  let visited := first ++ g.withoutList :: last
  let there : Resolution := ⟨r.globals, visited.filterMap value,
    (s.globalFindings r.globals).warnings ++ visited.flatMap noted, visited.flatMap failed⟩
  have values (g : GroupDecl) : (first ++ g :: last).filterMap value =
      first.filterMap value ++ (value g).toList ++ last.filterMap value := by
    simp [List.filterMap_eq_flatMap_toList]
  have inherited : (value g.withoutList).toList =
      (value g).toList.map ResolvedGroup.inheriting := by
    simp only [value, same.outcome]
    cases (s.resolveGroup templates true r.globals g).outcome <;> rfl
  have named : ∀ x ∈ (value g).toList, x.name = g.name := by
    intro x member
    have own := Outcome.toOption_eq_some.1 (Option.mem_toList.1 member)
    obtain ⟨_, _, _, _, _, _, rfl⟩ := Setting.resolveGroup_eq_ok.1 own
    rfl
  have globals : there.globals = r.globals := rfl
  refine ⟨there, ⟨gathered.outer, rfl, rfl, rfl⟩, ?_⟩
  apply Resolution.sameButList_of_groups globals (gathered.groups.trans (values g))
  · exact (values g.withoutList).trans (by rw [inherited])
  · exact Option.length_toList_le
  · exact named
  · refine ⟨(s.globalFindings r.globals).warnings ++ first.flatMap noted,
      noted g.withoutList ++ last.flatMap noted, ?_, ?_⟩
    · rw [gathered.warnings, List.flatMap_append, List.flatMap_cons, same.warnings]
      simp only [noted, List.append_assoc]
    · simp only [there, visited, List.flatMap_append, List.flatMap_cons, List.append_assoc]
  · rw [gathered.failures]
    simp only [there, visited, failed, List.flatMap_append, List.flatMap_cons, same.failures]

variable {o : ResolveOptions} {before after : List GroupDecl} {g : GroupDecl}

theorem checkGroup_withoutList (split : c.groups = before ++ g :: after) (wanted : Option String) :
    (c.withGroups (before ++ g.withoutList :: after)).checkGroup wanted = c.checkGroup wanted := by
  cases wanted with
  | none => rfl
  | some name =>
    unfold checkGroup withGroups
    simp only [split, List.any_append, List.any_cons, GroupDecl.withoutList]

theorem filter_selects_at (selected : o.selects g = true) :
    (before ++ g :: after).filter o.selects =
      before.filter o.selects ++ g :: after.filter o.selects := by
  rw [List.filter_append, List.filter_cons_of_pos selected]

theorem resolve_withoutList (resolved : c.resolve templates o = .ok r) (set : setting o = .ok s)
    (split : c.groups = before ++ g :: after) (selected : o.selects g = true)
    (repeats : g.Redundant c.globals) {scope : Scope}
    (inner : s.resolveScope (.ofGroup g) [r.globals] = .ok scope) :
    ∃ there, (c.withGroups (before ++ g.withoutList :: after)).resolve templates o = .ok there ∧
      r.SameButList there g.name (s.listWarnings scope) := by
  obtain ⟨t, known, also, gathered, none⟩ := resolve_eq_ok_iff_gathered.1 resolved
  rw [set] at also
  cases also
  have global := Setting.allowlist_of_resolveScope gathered.outer
  have own := Setting.allowlist_of_resolveScope inner
  rw [split, filter_selects_at selected] at gathered
  obtain ⟨there, anew, same⟩ := gathered_withoutList gathered inner
    ((Setting.redundantList_iff global own).2 repeats) (before ++ g.withoutList :: after)
  refine ⟨there, resolve_eq_ok_iff_gathered.2 ⟨s, ?_, set, ?_, ?_⟩, same⟩
  · rw [checkGroup_withoutList split]
    exact known
  · have still : o.selects g.withoutList = true := selected
    have visited : (c.withGroups (before ++ g.withoutList :: after)).groups.filter o.selects =
        before.filter o.selects ++ g.withoutList :: after.filter o.selects :=
      filter_selects_at still
    rw [visited]
    exact anew
  · intro stops
    rw [same.failures]
    exact none stops

/-- The warnings of a run are those that its declarations call for, and what is said to be redundant
can be left out. -/
theorem resolve_warnings_exact (resolved : c.resolve templates o = .ok r) :
    ∃ s, setting o = .ok s ∧
      (∀ ws, c.Notes templates s r.globals (c.groups.filter o.selects) ws ↔ ws = r.warnings) ∧
      (∀ label, .redundantAllowlist label ∈ r.warnings →
        ∃ before g after scope, c.groups = before ++ g :: after ∧ o.selects g = true ∧
          label = (ScopeLabel.group g.name).text ∧ g.Redundant c.globals ∧
          s.resolveScope (.ofGroup g) [r.globals] = .ok scope) ∧
      ∀ before g after scope, c.groups = before ++ g :: after → o.selects g = true →
        g.Redundant c.globals → s.resolveScope (.ofGroup g) [r.globals] = .ok scope →
        ∃ there unset,
          (c.withGroups (before ++ g.withoutList :: after)).resolve templates o = .ok there ∧
          s.UnsetNotes (.group g.name) g.allowlist unset ∧
          r.SameButList there g.name
            (.redundantAllowlist (ScopeLabel.group g.name).text :: unset) := by
  obtain ⟨s, set, gathered⟩ := gathered_of_resolve resolved
  have notes := notes_of_gathered gathered
  refine ⟨s, set, fun ws => ⟨(·.unique notes), ?_⟩, ?_, ?_⟩
  · rintro rfl
    exact notes
  · intro label member
    obtain ⟨g, visited, same, repeats, scope, inner⟩ := notes.redundant_of_mem member
    obtain ⟨listed, selected⟩ := List.mem_filter.1 visited
    obtain ⟨before, after, split⟩ := List.append_of_mem listed
    exact ⟨before, g, after, scope, split, selected, same, repeats, inner⟩
  · intro before g after scope split selected repeats inner
    obtain ⟨there, anew, same⟩ := resolve_withoutList resolved set split selected repeats inner
    have label : scope.label = .group g.name := Setting.label_of_resolveScope inner
    have unset := s.unsetNotes (Setting.allowlist_of_resolveScope inner)
    rw [label] at unset
    rw [Setting.listWarnings, label] at same
    exact ⟨there, _, anew, unset, same⟩

def repeated : Config where
  globals := { allowlist := some ["A"] }
  groups := [{ name := "g", allowlist := some ["A", "A"]
               commands := [{ name := "run", cmd := some "run%{A}" }] }]

theorem resolve_warnings_exact_repeated :
    ∃ r there unset, repeated.resolve .empty {} = .ok r ∧
      r.warnings = [.unsetVariable "global" "A", .redundantAllowlist "group:g",
        .unsetVariable "group:g" "A"] ∧
      (∃ groups, (repeated.withGroups groups).resolve .empty {} = .ok there) ∧
      r.SameButList there "g" (.redundantAllowlist "group:g" :: unset) := by
  have ran : (repeated.resolve .empty {}).toOption.map (·.warnings) =
      some [.unsetVariable "global" "A", .redundantAllowlist "group:g",
        .unsetVariable "group:g" "A"] := by
    decide +kernel
  obtain ⟨r, resolved, warnings⟩ := Outcome.map_toOption_eq_some.1 ran
  obtain ⟨s, _, _, reported, removed⟩ := resolve_warnings_exact resolved
  obtain ⟨before, g, after, scope, split, selected, _, repeats, inner⟩ :=
    reported "group:g" (by simp [warnings])
  obtain ⟨there, unset, anew, _, same⟩ := removed before g after scope split selected repeats inner
  have member : g ∈ repeated.groups := by
    simp [split]
  cases List.mem_singleton.1 member
  exact ⟨r, there, unset, resolved, warnings, ⟨_, anew⟩, same⟩

end Config
end ScopedCommands
