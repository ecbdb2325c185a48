import ScopedCommands.Proofs.Config.Audit
import ScopedCommands.Proofs.Resolution.Errors
import ScopedCommands.Proofs.Template.Binding
import ScopedCommands.Proofs.Template.Registry

/-!
The errors of a resolution. Each stage fails with an error that tells its scope. If all declarations
can be read, no stage fails for one of them: the env and the risk level of a template call are those
that were checked with its template. And a stage that gives its value has read all of its
declarations.
-/
namespace ScopedCommands

open Outcome

def ResolveError.isDeclaration : ResolveError → Bool
  | .declaration _ _ _ => true
  | .expansion _ _ _ | .unsafeValue _ _ _ | .template _ _ _ | .templateNotFound _ _
  | .groupNotFound _ | .policy _ | .registry _ => false

namespace ResolveError

def Other (e : ResolveError) : Prop := e.isDeclaration = false

def HasScope (e : ResolveError) : Prop := e.scope?.isSome = true

theorem hasScope_declaration (scope field : String) (cause : DeclarationError) :
    HasScope (.declaration scope field cause) := rfl

structure Scoped (inOrder : Prop) (e : ResolveError) : Prop where
  label : e.HasScope
  other : inOrder → e.Other

variable {inOrder : Prop}

theorem ofValues_scoped (label : String) : OfValues (Scoped inOrder) label where
  expansion _ _ := ⟨rfl, fun _ => rfl⟩
  unsafeValue _ _ := ⟨rfl, fun _ => rfl⟩

theorem ofTemplates_scoped (label : String) : OfTemplates (Scoped inOrder) label where
  template _ := ⟨rfl, fun _ => rfl⟩
  notFound _ := ⟨rfl, fun _ => rfl⟩

theorem scoped_of_given {α : Type} {x : Except ResolveError α}
    (label : FailsOnly HasScope x) (given : inOrder → ∃ a, x = .ok a) :
    FailsOnly (Scoped inOrder) x := by
  intro e failed
  refine ⟨label e failed, fun sound => ?_⟩
  obtain ⟨a, instead⟩ := given sound
  rw [instead] at failed
  cases failed

end ResolveError

namespace Setting

variable {s : Setting} {templates : Registry} {g : Enclosing} {c : CommandDecl}

theorem rawFields_eq_ok {label : String} {raw : RawCommand} :
    (rawFields templates label c).outcome = .ok raw ↔
      (c.template = none ∧ raw = c.inlineFields) ∨
      ∃ name t b, c.template = some name ∧ templates.template? name = some t ∧
        t.bind name c.params = .ok b ∧ raw = c.boundFields b := by
  unfold rawFields
  cases c.template with
  | none => simp [pure, eq_comm]
  | some name =>
    simp only [bindTemplate, Step.bind_eq_ok]
    cases known : templates.template? name with
    | none => simp [Step.ofExcept, known]
    | some t =>
      cases bound : t.bind name c.params with
      | error e => simp [Step.ofExcept, known, bound]
      | ok b => simp [known, bound, pure, eq_comm]

theorem readable_ofCommand {group : String} {env other : List String}
    (h : (ScopeDecl.ofCommand group c env).Readable)
    (declares : ∃ read, Declaration.environment "env" other = .ok read) :
    (ScopeDecl.ofCommand group c other).Readable := by
  obtain ⟨imports, vars, _⟩ := ScopeDecl.readable_iff.1 h
  exact ScopeDecl.readable_iff.2 ⟨imports, vars, declares⟩

theorem readable_rawFields {label : String} {raw : RawCommand} (declared : c.Declared g.group)
    (checked : templates.Checked) (given : (rawFields templates label c).outcome = .ok raw) :
    (ScopeDecl.ofCommand g.group c raw.env).Readable ∧
      ∃ level, RiskLevel.parseDeclared raw.riskLevel = .ok level := by
  rcases rawFields_eq_ok.1 given with ⟨_, rfl⟩ | ⟨name, t, b, _, known, bound, rfl⟩
  · exact ⟨declared.scope, declared.risk⟩
  · have binds := t.binds_of_bind bound
    refine ⟨readable_ofCommand declared.scope (binds.declares "env"), ?_⟩
    have own := declared.risk
    simp only [CommandDecl.boundFields]
    cases level : c.riskLevel with
    | none =>
      rw [Option.none_or, binds.risk]
      exact t.risk_of_check (Registry.check_of_template? checked known)
    | some text =>
      rw [level] at own
      exact own

theorem declared_of_rawFields {label : String} {raw : RawCommand}
    (fields : c.checkFields g.group = .ok ())
    (given : (rawFields templates label c).outcome = .ok raw)
    (readable : (ScopeDecl.ofCommand g.group c raw.env).Readable)
    (risk : ∃ level, RiskLevel.parseDeclared raw.riskLevel = .ok level) : c.Declared g.group := by
  rcases rawFields_eq_ok.1 given with ⟨_, rfl⟩ | ⟨name, t, b, calls, known, bound, rfl⟩
  · exact ⟨fields, readable, risk⟩
  · have noEnv : c.env = none := by
      unfold CommandDecl.checkFields at fields
      simp only [calls] at fields
      cases env : c.env with
      | none => rfl
      | some entries =>
        simp only [env, Option.isSome_some, if_true] at fields
        split at fields
        · cases fields
        · split at fields <;> cases fields
    refine ⟨fields, readable_ofCommand readable ?_, ?_⟩
    · rw [noEnv]
      exact ⟨[], rfl⟩
    · cases level : c.riskLevel with
      | none => exact ⟨none, rfl⟩
      | some text =>
        simp only [CommandDecl.boundFields, level, Option.some_or] at risk
        exact risk

section FailsOnly

variable {inOrder : Prop}

theorem scoped_declarations {d : ScopeDecl} (readable : inOrder → d.Readable) :
    FailsOnly (ResolveError.Scoped inOrder) d.declarations :=
  ResolveError.scoped_of_given
    (failsOnly_declarations (ResolveError.hasScope_declaration d.label.text)) readable

variable (s)

theorem scoped_resolveScope {d : ScopeDecl} (readable : inOrder → d.Readable)
    (parents : List Scope) :
    FailsOnly (ResolveError.Scoped inOrder) (s.resolveScope d parents) :=
  s.failsOnly_resolveScope (scoped_declarations readable) (ResolveError.ofValues_scoped _) parents

variable {s}

theorem scoped_resolveRaw {raw : RawCommand}
    (readable : inOrder → (ScopeDecl.ofCommand g.group c raw.env).Readable)
    (risk : inOrder → ∃ level, RiskLevel.parseDeclared raw.riskLevel = .ok level) :
    (s.resolveRaw g c raw).FailsOnly (ResolveError.Scoped inOrder) := by
  have label := fun cause =>
    ResolveError.hasScope_declaration (g.label c) "risk_level" (.badRisk cause)
  have level := ResolveError.scoped_of_given
    (failsOnly_mapError label (RiskLevel.parseDeclared raw.riskLevel)) fun sound =>
      (risk sound).imp fun _ => mapError_eq_ok.2
  exact failsOnly_resolveRaw level (s.scoped_resolveScope readable g.parents)
    (failsOnly_texts (ResolveError.ofValues_scoped _))

theorem scoped_resolveCommand (declared : inOrder → c.Declared g.group)
    (checked : inOrder → templates.Checked) :
    (s.resolveCommand templates g c).FailsOnly (ResolveError.Scoped inOrder) := by
  unfold resolveCommand
  have label := ResolveError.hasScope_declaration (g.label c) "command"
  have fields := ResolveError.scoped_of_given
    (failsOnly_mapError label (c.checkFields g.group)) fun sound =>
      ⟨(), mapError_eq_ok.2 (declared sound).fields⟩
  refine (Step.failsOnly_ofExcept fields).bind fun _ _ => ?_
  refine (failsOnly_rawFields templates c (ResolveError.ofTemplates_scoped _)).bind
    fun raw given => ?_
  have read := fun sound => readable_rawFields (declared sound) (checked sound) given
  exact scoped_resolveRaw (fun sound => (read sound).1) fun sound => (read sound).2

theorem scoped_resolveGroup {keepGoing : Bool} {globals : Scope} {g : GroupDecl}
    (declared : inOrder → g.Declared) (checked : inOrder → templates.Checked) :
    (s.resolveGroup templates keepGoing globals g).FailsOnly (ResolveError.Scoped inOrder) := by
  apply failsOnly_resolveGroup
  · exact s.scoped_resolveScope (fun sound => (declared sound).scope) [globals]
  · exact failsOnly_texts (ResolveError.ofValues_scoped _)
  · intro scope workdir _ c member
    exact scoped_resolveCommand (fun sound => (declared sound).commands c member) checked

end FailsOnly

theorem declared_of_resolveCommand {r : ResolvedCommand}
    (resolved : (s.resolveCommand templates g c).outcome = .ok r) : c.Declared g.group := by
  obtain ⟨raw, level, scope, fields, given, risk, inner, _⟩ := resolveCommand_eq_ok.1 resolved
  obtain ⟨read, _, _, _, parsed, _⟩ := resolveScope_eq_ok.1 inner
  exact declared_of_rawFields fields given ⟨read, parsed⟩ ⟨level, risk⟩

theorem declared_of_resolveGroup {keepGoing : Bool} {globals : Scope} {g : GroupDecl}
    {r : ResolvedGroup} (resolved : (s.resolveGroup templates keepGoing globals g).Completes r) :
    g.Declared := by
  obtain ⟨scope, inner, rest⟩ := Step.completes_bind_iff.1 resolved
  obtain ⟨_, _, rest⟩ := Step.completes_bind_iff.1 rest
  obtain ⟨workdir, _, rest⟩ := Step.completes_bind_iff.1 rest
  obtain ⟨commands, collected, _⟩ := Step.completes_bind_iff.1 rest
  obtain ⟨read, _, _, _, parsed, _⟩ := resolveScope_eq_ok.1 inner.outcome
  refine ⟨⟨read, parsed⟩, fun c member => ?_⟩
  obtain ⟨command, single⟩ := Step.completes_collect collected c member
  exact declared_of_resolveCommand single.outcome

end Setting

namespace Config

variable {c : Config} {templates : Registry} {o : ResolveOptions} {inOrder : Prop}

theorem scoped_run (declared : inOrder → c.Declared) (checked : inOrder → templates.Checked)
    (s : Setting) (globals : Scope) :
    (c.run templates o s globals).FailsOnly (ResolveError.Scoped inOrder) := by
  apply failsOnly_run
  intro g member
  exact Setting.scoped_resolveGroup (fun sound => (declared sound).groups g member) checked

theorem scoped_resolveWith (declared : inOrder → c.Declared)
    (checked : inOrder → templates.Checked) (s : Setting) :
    FailsOnly (ResolveError.Scoped inOrder) (c.resolveWith templates o s) := by
  rw [resolveWith_eq]
  refine (s.scoped_resolveScope (fun sound => (declared sound).globals) []).bind fun globals _ => ?_
  exact (scoped_run declared checked s globals).outcome.map _

theorem other_resolve (declared : c.Declared) (checked : templates.Checked) :
    FailsOnly ResolveError.Other (c.resolve templates o) := by
  have grouped : FailsOnly ResolveError.Other (c.checkGroup o.group) := by
    unfold checkGroup
    split
    · exact failsOnly_ok ()
    · split
      · exact failsOnly_ok ()
      · exact failsOnly_error rfl
  have set : FailsOnly ResolveError.Other (setting o) := by
    unfold setting
    split
    · exact failsOnly_error rfl
    · exact failsOnly_ok _
  refine grouped.bind fun _ _ => set.bind fun s _ => ?_
  intro e failed
  exact (scoped_resolveWith (fun _ : True => declared) (fun _ => checked) s e failed).other trivial

theorem other_failures {r : Resolution} (declared : c.Declared) (checked : templates.Checked)
    (resolved : c.resolve templates o = .ok r) : ∀ e ∈ r.failures, e.Other := by
  obtain ⟨s, globals, groups, _, _, _, _, rfl⟩ := resolve_eq_ok.1 resolved
  intro e member
  exact ((scoped_run (fun _ : True => declared) (fun _ => checked) s globals).failures e
    member).other trivial

/-- A run over all groups without failures has read every declaration. -/
theorem declared_of_resolve {r : Resolution} (resolved : c.resolve templates o = .ok r)
    (all : o.group = none) (complete : r.failures = []) : c.Declared := by
  obtain ⟨s, globals, groups, _, _, outer, ran, rfl⟩ := resolve_eq_ok.1 resolved
  obtain ⟨read, _, _, _, parsed, _⟩ := Setting.resolveScope_eq_ok.1 outer
  have run : (c.run templates o s globals).Completes groups := ⟨ran, complete⟩
  obtain ⟨_, _, collected⟩ := Step.completes_bind_iff.1 run
  refine ⟨⟨read, parsed⟩, fun g member => ?_⟩
  have selected : g ∈ c.groups.filter o.selects := by
    simp [ResolveOptions.selects, all, member]
  obtain ⟨group, single⟩ := Step.completes_collect collected g selected
  exact Setting.declared_of_resolveGroup single

end Config
end ScopedCommands
