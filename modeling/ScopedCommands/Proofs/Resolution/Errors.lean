import ScopedCommands.Proofs.Failures
import ScopedCommands.Proofs.Resolution.Inversion
import ScopedCommands.Proofs.Resolution.KeepGoing

/-!
What the stages of a resolution fail with. Beside its declarations, a scope has values that go wrong
in their expansion or in the check against the safety rules, always under the label of the scope. So
a property of these errors holds of everything that a stage fails with. That an error names the scope
it arose in (`ResolveError.At`) is one such property.
-/
namespace ScopedCommands

open Outcome

namespace ResolveError

structure OfValues (P : ResolveError → Prop) (label : String) : Prop where
  expansion : ∀ field cause, P (.expansion label field cause)
  unsafeValue : ∀ field cause, P (.unsafeValue label field cause)

structure OfTemplates (P : ResolveError → Prop) (label : String) : Prop where
  template : ∀ cause, P (.template label "template" cause)
  notFound : ∀ name, P (.templateNotFound label name)

def At (label : String) (e : ResolveError) : Prop := e.scope? = some label

theorem at_declaration (label field : String) (cause : DeclarationError) :
    At label (.declaration label field cause) := rfl

theorem ofValues_at (label : String) : OfValues (At label) label :=
  ⟨fun _ _ => rfl, fun _ _ => rfl⟩

theorem ofTemplates_at (label : String) : OfTemplates (At label) label :=
  ⟨fun _ => rfl, fun _ => rfl⟩

end ResolveError

namespace Setting

variable (s : Setting) {P : ResolveError → Prop}

section

variable {label : ScopeLabel} (values : ResolveError.OfValues P label.text) (allowlist : Allowlist)
  (parents : List Scope) (vars : Dict String)

include values

theorem failsOnly_keep (field name value : String) :
    FailsOnly P (do s.checkSafe label field name value; return vars.insert name value) := by
  have checked : FailsOnly P (s.checkSafe label field name value) :=
    failsOnly_mapError (values.unsafeValue field) _
  exact checked.bind fun _ _ => failsOnly_ok _

theorem failsOnly_addImport (a : Assignment) :
    FailsOnly P (s.addImport label allowlist vars a) := by
  unfold addImport
  split
  next => exact s.failsOnly_keep values vars _ _ _
  next => exact failsOnly_error (values.expansion _ _)

theorem failsOnly_addVar (a : Assignment) :
    FailsOnly P (s.addVar label allowlist parents vars a) := by
  have expanded := failsOnly_mapError (values.expansion s!"vars.{a.name}")
    (s.expandVar label allowlist parents vars a)
  exact expanded.bind fun value _ => s.failsOnly_keep values vars _ _ value

theorem failsOnly_addEnv (env : Dict String) (a : Assignment) :
    FailsOnly P (s.addEnv label allowlist parents vars env a) := by
  have expanded := failsOnly_mapError (values.expansion s!"env.{a.name}")
    (expandIn (s.context label allowlist s!"env.{a.name}") (s.lookup vars parents) a.value)
  exact expanded.bind fun value _ => s.failsOnly_keep values env _ _ value

end

theorem failsOnly_declarations {d : ScopeDecl}
    (read : ∀ field cause, P (.declaration d.label.text field cause)) :
    FailsOnly P d.declarations := by
  refine (failsOnly_mapError (read "from_env") _).bind fun imports _ => ?_
  refine (failsOnly_mapError (read "vars") _).bind fun vars _ => ?_
  exact (failsOnly_mapError (read "env") _).bind fun env _ => failsOnly_ok _

theorem failsOnly_resolveScope {d : ScopeDecl} (declarations : FailsOnly P d.declarations)
    (values : ResolveError.OfValues P d.label.text) (parents : List Scope) :
    FailsOnly P (s.resolveScope d parents) := by
  unfold resolveScope
  refine declarations.bind fun read _ => ?_
  refine (FailsOnly.foldlM (s.failsOnly_addImport values _) _ _).bind fun imported _ => ?_
  refine (FailsOnly.foldlM (s.failsOnly_addVar values _ _) _ _).bind fun vars _ => ?_
  refine (FailsOnly.foldlM (s.failsOnly_addEnv values _ _ vars) _ _).bind fun env _ => ?_
  exact failsOnly_ok _

theorem failsOnly_expandField {scope : Scope} (values : ResolveError.OfValues P scope.label.text)
    (parents : List Scope) (field raw : String) :
    FailsOnly P (s.expandField scope parents field raw) :=
  failsOnly_mapError (values.expansion field) _

section

variable {s} {scope : Scope} {parents : List Scope}
  (texts : ∀ field raw, FailsOnly P (s.expandField scope parents field raw))

include texts

theorem failsOnly_expandArgs (index : Nat) (args : List String) :
    FailsOnly P (s.expandArgs scope parents index args) := by
  induction args generalizing index with
  | nil => exact failsOnly_ok []
  | cons raw rest ih =>
    have first := texts s!"args[{index}]" raw
    exact first.bind fun value _ => (ih (index + 1)).bind fun others _ => failsOnly_ok _

theorem failsOnly_expandWorkdir (inherited own : Option String) :
    FailsOnly P (s.expandWorkdir scope parents inherited own) := by
  cases own with
  | none => exact failsOnly_ok inherited
  | some raw => exact (texts "workdir" raw).map some

end

theorem failsOnly_assemble {g : Enclosing} {scope : Scope}
    (texts : ∀ field raw, FailsOnly P (s.expandField scope g.parents field raw)) (c : CommandDecl)
    (raw : RawCommand) (risk : RiskLevel) : FailsOnly P (s.assemble g c raw risk scope) := by
  have args := failsOnly_expandArgs texts 0 raw.args
  have workdir := failsOnly_expandWorkdir texts g.workdir raw.workdir
  exact (texts "cmd" raw.cmd).bind fun _ _ => args.bind fun _ _ => workdir.bind fun _ _ =>
    failsOnly_ok _

theorem failsOnly_rawFields (templates : Registry) {label : String} (c : CommandDecl)
    (bound : ResolveError.OfTemplates P label) : (rawFields templates label c).FailsOnly P := by
  apply Step.failsOnly_of_outcome (failures_rawFields templates label c)
  unfold rawFields bindTemplate
  split
  next => exact failsOnly_ok _
  next name _ =>
    cases templates.template? name with
    | none => exact failsOnly_error (bound.notFound name)
    | some t =>
      cases given : t.bind name c.params with
      | error e =>
        simp only [given]
        exact failsOnly_error (bound.template e)
      | ok b =>
        simp only [given]
        exact failsOnly_ok _

variable {s} {g : Enclosing} {c : CommandDecl}

theorem failsOnly_resolveRaw {raw : RawCommand}
    (risk : FailsOnly P ((RiskLevel.parseDeclared raw.riskLevel).mapError
      fun e => .declaration (g.label c) "risk_level" (.badRisk e)))
    (inner : FailsOnly P (s.resolveScope (.ofCommand g.group c raw.env) g.parents))
    (texts : ∀ scope, s.resolveScope (.ofCommand g.group c raw.env) g.parents = .ok scope →
      ∀ field raw, FailsOnly P (s.expandField scope g.parents field raw)) :
    (s.resolveRaw g c raw).FailsOnly P := by
  unfold resolveRaw
  refine (Step.failsOnly_ofExcept risk).bind fun level _ => ?_
  refine (Step.failsOnly_ofExcept inner).bind fun scope resolved => ?_
  refine (Step.failsOnly_note (s.failures_unsetNames scope)).bind fun _ _ => ?_
  exact Step.failsOnly_ofExcept (s.failsOnly_assemble (texts scope resolved) c raw _)

/-- What is wrong with a value of a scope is wrong with a text in it. -/
theorem failsOnly_texts {d : ScopeDecl} {parents : List Scope}
    (values : ResolveError.OfValues P d.label.text) (scope : Scope)
    (resolved : s.resolveScope d parents = .ok scope) (field raw : String) :
    FailsOnly P (s.expandField scope parents field raw) := by
  rw [← label_of_resolveScope resolved] at values
  exact s.failsOnly_expandField values parents field raw

theorem failsOnly_resolveGroup {templates : Registry} {keepGoing : Bool} {globals : Scope}
    {g : GroupDecl} (inner : FailsOnly P (s.resolveScope (.ofGroup g) [globals]))
    (texts : ∀ scope, s.resolveScope (.ofGroup g) [globals] = .ok scope →
      ∀ field raw, FailsOnly P (s.expandField scope [globals] field raw))
    (commands : ∀ scope workdir, s.resolveScope (.ofGroup g) [globals] = .ok scope →
      ∀ c ∈ g.commands,
        (s.resolveCommand templates ⟨g.name, globals, scope, workdir⟩ c).FailsOnly P) :
    (s.resolveGroup templates keepGoing globals g).FailsOnly P := by
  unfold resolveGroup
  refine (Step.failsOnly_ofExcept inner).bind fun scope resolved => ?_
  refine (Step.failsOnly_note (by simp)).bind fun _ _ => ?_
  have directory := failsOnly_expandWorkdir (texts scope resolved) none g.workdir
  refine (Step.failsOnly_ofExcept directory).bind fun workdir _ => ?_
  exact (Step.failsOnly_collect (commands scope workdir resolved)).bind fun _ _ =>
    Step.failsOnly_ofExcept (failsOnly_ok _)

theorem at_declarations (d : ScopeDecl) :
    FailsOnly (ResolveError.At d.label.text) d.declarations :=
  failsOnly_declarations (ResolveError.at_declaration d.label.text)

theorem at_resolveScope (d : ScopeDecl) (parents : List Scope) :
    FailsOnly (ResolveError.At d.label.text) (s.resolveScope d parents) :=
  s.failsOnly_resolveScope (at_declarations d) (ResolveError.ofValues_at d.label.text) parents

theorem at_resolveCommand (templates : Registry) (g : Enclosing) (c : CommandDecl) :
    (s.resolveCommand templates g c).FailsOnly (ResolveError.At (g.label c)) := by
  have declared := ResolveError.at_declaration (g.label c)
  have fields := failsOnly_mapError (declared "command") (c.checkFields g.group)
  have bound := failsOnly_rawFields templates c (ResolveError.ofTemplates_at (g.label c))
  unfold resolveCommand
  refine (Step.failsOnly_ofExcept fields).bind fun _ _ => bound.bind fun raw _ => ?_
  have values := ResolveError.ofValues_at (g.label c)
  apply failsOnly_resolveRaw
  · exact failsOnly_mapError (fun cause => declared "risk_level" (.badRisk cause)) _
  · exact s.at_resolveScope (.ofCommand g.group c raw.env) g.parents
  · exact failsOnly_texts values

end Setting

namespace Config

theorem failsOnly_run {c : Config} {templates : Registry} {o : ResolveOptions} {s : Setting}
    {globals : Scope} {P : ResolveError → Prop}
    (groups : ∀ g ∈ c.groups,
      (s.resolveGroup templates o.keepGoing globals g).FailsOnly P) :
    (c.run templates o s globals).FailsOnly P := by
  refine (Step.failsOnly_note (s.failures_globalFindings globals)).bind fun _ _ => ?_
  exact Step.failsOnly_collect fun g member => groups g (List.mem_filter.1 member).1

/-- The errors that a resolution ends with or collects. -/
def Reports (c : Config) (templates : Registry) (o : ResolveOptions) (e : ResolveError) : Prop :=
  c.resolve templates o = .error e ∨ ∃ r, c.resolve templates o = .ok r ∧ e ∈ r.failures

/-- A report is about the options, or arises in the global scope or in the groups. -/
theorem Reports.cases {c : Config} {templates : Registry} {o : ResolveOptions} {e : ResolveError}
    (h : c.Reports templates o e) :
    (∃ name, e = .groupNotFound name) ∨ (∃ cause, e = .policy cause) ∨
      ∃ s, setting o = .ok s ∧ (s.resolveScope (.ofGlobals c.globals) [] = .error e ∨
        ∃ globals, s.resolveScope (.ofGlobals c.globals) [] = .ok globals ∧
          e ∈ (c.run templates o s globals).allFailures) := by
  rcases h with failed | ⟨r, resolved, member⟩
  · simp only [resolve, resolveWith_eq, Resolution.ofRun, bind_eq_error, map_eq_error] at failed
    rcases failed with unknown | ⟨_, _, unset | ⟨s, set, outer | ⟨globals, outer, ran⟩⟩⟩
    · unfold checkGroup at unknown
      split at unknown
      · cases unknown
      · split at unknown
        · cases unknown
        · exact .inl ⟨_, (Except.error.inj unknown).symm⟩
    · unfold setting at unset
      split at unset
      · exact .inr (.inl ⟨_, (Except.error.inj unset).symm⟩)
      · cases unset
    · exact .inr (.inr ⟨s, set, .inl outer⟩)
    · refine .inr (.inr ⟨s, set, .inr ⟨globals, outer, ?_⟩⟩)
      exact List.mem_append_right _ (Option.mem_toList.2 (error?_eq_some.2 ran))
  · obtain ⟨s, globals, groups, _, set, outer, _, rfl⟩ := resolve_eq_ok.1 resolved
    exact .inr (.inr ⟨s, set, .inr ⟨globals, outer, List.mem_append_left _ member⟩⟩)

end Config
end ScopedCommands
