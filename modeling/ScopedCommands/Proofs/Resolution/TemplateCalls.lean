import ScopedCommands.Proofs.Resolution.Inversion
import ScopedCommands.Proofs.Template.Binding

namespace ScopedCommands

open Outcome

theorem Text.ne_empty_of_not_blank {text : String} (full : allBlank text = false) : text ≠ "" := by
  intro empty
  rw [empty] at full
  revert full
  decide

def CommandDecl.inlined (c : CommandDecl) (b : BoundCommand) : CommandDecl :=
  { c with
    cmd := some b.cmd
    args := some b.args
    env := some b.env
    workdir := c.workdir.or b.workdir
    riskLevel := c.riskLevel.or b.riskLevel
    template := none }

/-- A call has nothing of its own that its template gives. -/
structure CommandDecl.Calls (c : CommandDecl) (template : String) : Prop where
  named : c.template = some template
  noCmd : c.cmd = none
  noArgs : c.args = none
  noEnv : c.env = none

theorem CommandDecl.Calls.checkFields {c : CommandDecl} {name : String} (h : c.Calls name)
    (group : String) : c.checkFields group = .ok () := by
  simp [CommandDecl.checkFields, h.named, h.noCmd, h.noArgs, h.noEnv]

theorem CommandDecl.checkFields_inlined {t : Template} {b : BoundCommand} (binds : t.Binds b)
    (c : CommandDecl) (group : String) : (c.inlined b).checkFields group = .ok () := by
  have full : b.cmd ≠ "" := Text.ne_empty_of_not_blank binds.command
  simp [checkFields, inlined, full]

namespace Step

variable {α β γ : Type} {f : β → γ}

/-- Both steps find the same, and the second one gives the value of the first under `f`. -/
structure Mapped (f : β → γ) (s : Step β) (t : Step γ) : Prop where
  findings : t.findings = s.findings
  outcome : t.outcome = s.outcome.map f

theorem mapped_bind (s : Step α) {next : α → Step β} {other : α → Step γ}
    (later : ∀ a, Mapped f (next a) (other a)) : Mapped f (s >>= next) (s >>= other) := by
  cases out : s.outcome with
  | ok a =>
    rw [bind_of_ok out, bind_of_ok out]
    exact ⟨congrArg (s.findings ++ ·) (later a).findings, (later a).outcome⟩
  | error e =>
    rw [bind_of_error out, bind_of_error out]
    exact ⟨rfl, rfl⟩

end Step

namespace Setting

variable (s : Setting) (g : Enclosing) (c : CommandDecl) (raw : RawCommand)

theorem assemble_inlined (b : BoundCommand) (risk : RiskLevel) (scope : Scope) :
    s.assemble g c raw risk scope =
      (s.assemble g (c.inlined b) raw risk scope).map fun r => { r with template := c.template } := by
  unfold assemble
  cases s.expandField scope g.parents "cmd" raw.cmd with
  | error e => rfl
  | ok cmd =>
    cases s.expandArgs scope g.parents 0 raw.args with
    | error e => rfl
    | ok args =>
      cases s.expandWorkdir scope g.parents g.workdir raw.workdir with
      | error e => rfl
      | ok workdir => rfl

theorem resolveRaw_inlined (b : BoundCommand) :
    Step.Mapped (fun r : ResolvedCommand => { r with template := c.template })
      (s.resolveRaw g (c.inlined b) raw) (s.resolveRaw g c raw) := by
  unfold resolveRaw
  refine Step.mapped_bind _ fun risk => ?_
  refine Step.mapped_bind _ fun scope => ?_
  refine Step.mapped_bind _ fun _ => ?_
  exact ⟨rfl, s.assemble_inlined g c raw b _ scope⟩

variable {s g c raw}

theorem rawFields_of_call {templates : Registry} {name label : String} {t : Template}
    {b : BoundCommand} (calls : c.Calls name) (known : templates.template? name = some t)
    (bound : t.bind name c.params = .ok b) :
    rawFields templates label c =
      ⟨{ warnings := b.unusedParams.map (.unusedParameter label name) },
        .ok (c.boundFields b)⟩ := by
  simp only [rawFields, calls.named, bindTemplate, known, bound]
  exact Step.bind_pure_of_ok rfl _

theorem resolveCommand_of_call {templates : Registry} {name : String} {t : Template}
    {b : BoundCommand} (calls : c.Calls name) (known : templates.template? name = some t)
    (bound : t.bind name c.params = .ok b) :
    s.resolveCommand templates g c =
      ⟨{ warnings := b.unusedParams.map (.unusedParameter (g.label c) name) } ++
          (s.resolveRaw g c (c.boundFields b)).findings,
        (s.resolveRaw g c (c.boundFields b)).outcome⟩ := by
  unfold resolveCommand
  rw [calls.checkFields, rawFields_of_call calls known bound]
  exact Step.ofExcept_ok_bind () _

theorem resolveCommand_inlined (templates : Registry) {t : Template} {b : BoundCommand}
    (binds : t.Binds b) (description : Option String) (params : Dict Parameter) :
    s.resolveCommand templates g { c.inlined b with description, params } =
      s.resolveRaw g (c.inlined b) (c.boundFields b) := by
  have fields := c.checkFields_inlined binds g.group
  unfold resolveCommand
  rw [show CommandDecl.checkFields g.group { c.inlined b with description, params } = .ok ()
    from fields]
  exact (Step.ofExcept_ok_bind () _).trans (Step.ofExcept_ok_bind _ _)

/-- A call resolves as the inline command that it binds to, with the same error if it fails. It
differs in the template that is shown, and in a warning for each parameter that the template has no
use for. -/
theorem resolveCommand_call (s : Setting) (templates other : Registry) (g : Enclosing)
    {c : CommandDecl} {name : String} {t : Template} {b : BoundCommand} (calls : c.Calls name)
    (known : templates.template? name = some t) (bound : t.bind name c.params = .ok b)
    (description : Option String) (params : Dict Parameter) :
    (s.resolveCommand templates g c).outcome =
      (s.resolveCommand other g { c.inlined b with description, params }).outcome.map
        (fun r => { r with template := some name }) ∧
    (s.resolveCommand templates g c).findings =
      { warnings := b.unusedParams.map (.unusedParameter (g.label c) name) } ++
        (s.resolveCommand other g { c.inlined b with description, params }).findings := by
  have same := s.resolveRaw_inlined g c (c.boundFields b) b
  rw [calls.named] at same
  rw [resolveCommand_of_call calls known bound,
    resolveCommand_inlined other (t.binds_of_bind bound) description params]
  exact ⟨same.outcome, congrArg (_ ++ ·) same.findings⟩

def deploy : Template where
  cmd := "${tool} run"
  args := ["${@flags}", "%{MODE}"]
  env := ["TARGET=${target}"]
  riskLevel := some "high"

def ship (target : String) : CommandDecl where
  name := "ship"
  vars := ["MODE=fast"]
  riskLevel := some "medium"
  template := some "deploy"
  params := Dict.ofList [("tool", .text "make"), ("flags", .list ["-a", "-b"]),
    ("target", .text target), ("spare", .text "")]

def shipped (target : String) : BoundCommand where
  template := "deploy"
  cmd := "make run"
  args := ["-a", "-b", "%{MODE}"]
  env := ["TARGET=" ++ target]
  workdir := none
  riskLevel := some "high"
  unusedParams := ["spare"]

def deployments : Registry := Dict.ofList [("deploy", ⟨deploy, "deploy.yaml"⟩)]

def pipeline : Enclosing where
  group := "ci"
  globals := ⟨.globals, .empty, .empty, .none⟩
  scope := ⟨.group "ci", .empty, .empty, .none⟩
  workdir := some "/src"

def bare : Setting := ⟨⟨[]⟩, .empty, .empty⟩

theorem resolveCommand_call_deploy :
    (∃ r, (bare.resolveCommand .empty pipeline
          ((ship "%{MODE}").inlined (shipped "%{MODE}"))).outcome = .ok r ∧
      (bare.resolveCommand deployments pipeline (ship "%{MODE}")).outcome =
        .ok { r with template := some "deploy" } ∧
      (bare.resolveCommand deployments pipeline (ship "%{MODE}")).findings.warnings =
        [.unusedParameter "command:ci/ship" "deploy" "spare"]) ∧
    ∃ e, (bare.resolveCommand .empty pipeline
          ((ship "%{GONE}").inlined (shipped "%{GONE}"))).outcome = .error e ∧
      (bare.resolveCommand deployments pipeline (ship "%{GONE}")).outcome = .error e ∧
      (e.scope?, e.field?) = (some "command:ci/ship", some "env.TARGET") := by
  have known : deployments.template? "deploy" = some deploy := by decide +kernel
  have first : deploy.bind "deploy" (ship "%{MODE}").params = .ok (shipped "%{MODE}") :=
    toOption_eq_some.1 (by decide +kernel)
  have second : deploy.bind "deploy" (ship "%{GONE}").params = .ok (shipped "%{GONE}") :=
    toOption_eq_some.1 (by decide +kernel)
  have given : (bare.resolveCommand .empty pipeline
      ((ship "%{MODE}").inlined (shipped "%{MODE}"))).outcome.toOption.isSome = true := by
    decide +kernel
  have failed : (bare.resolveCommand .empty pipeline
      ((ship "%{GONE}").inlined (shipped "%{GONE}"))).outcome =
        .error (.expansion "command:ci/ship" "env.TARGET" (.undefined "GONE")) :=
    error?_eq_some.1 (by decide +kernel)
  have quiet : (bare.resolveCommand .empty pipeline
      ((ship "%{MODE}").inlined (shipped "%{MODE}"))).findings.warnings = [] := by
    decide +kernel
  obtain ⟨r, given⟩ := Option.isSome_iff_exists.1 given
  rw [toOption_eq_some] at given
  obtain ⟨gives, finds⟩ := bare.resolveCommand_call deployments .empty pipeline
    ⟨rfl, rfl, rfl, rfl⟩ known first none (ship "%{MODE}").params
  obtain ⟨fails, _⟩ := bare.resolveCommand_call deployments .empty pipeline
    ⟨rfl, rfl, rfl, rfl⟩ known second none (ship "%{GONE}").params
  refine ⟨⟨r, given, ?_, ?_⟩, _, failed, ?_, rfl⟩
  · exact gives.trans (congrArg (Except.map _) given)
  · rw [finds, Findings.warnings_append]
    exact congrArg (_ ++ ·) quiet
  · exact fails.trans (congrArg (Except.map _) failed)

end Setting
end ScopedCommands
