import ScopedCommands.Resolution.Collect
import ScopedCommands.Resolution.Scope
import ScopedCommands.Template.Bind
import ScopedCommands.Template.Registry

namespace ScopedCommands

structure ResolvedCommand where
  group : String
  name : String
  cmd : String
  args : List String
  env : Dict String
  workdir : Option String
  risk : RiskLevel
  template : Option String
deriving DecidableEq

structure RawCommand where
  cmd : String
  args : List String
  env : List String
  workdir : Option String
  riskLevel : Option String
deriving DecidableEq

namespace CommandDecl

def inlineFields (c : CommandDecl) : RawCommand :=
  ⟨c.cmd.getD "", c.args.getD [], c.env.getD [], c.workdir, c.riskLevel⟩

/-- The call's own working directory and risk level come before those of the template. -/
def boundFields (c : CommandDecl) (b : BoundCommand) : RawCommand :=
  ⟨b.cmd, b.args, b.env, c.workdir.or b.workdir, c.riskLevel.or b.riskLevel⟩

end CommandDecl

structure Enclosing where
  group : String
  globals : Scope
  scope : Scope
  workdir : Option String
deriving DecidableEq

namespace Enclosing

def parents (g : Enclosing) : List Scope := [g.scope, g.globals]

def label (g : Enclosing) (c : CommandDecl) : String := (ScopeLabel.command g.group c.name).text

end Enclosing

namespace Setting

def unsetNames (s : Setting) (scope : Scope) : Findings :=
  match scope.allowlist.mode with
  | .explicit =>
    { warnings := (scope.allowlist.toList.filter fun name => !s.environment.contains name).map
        (.unsetVariable scope.label.text) }
  | _ => {}

@[simp] theorem failures_unsetNames (s : Setting) (scope : Scope) :
    (s.unsetNames scope).failures = [] := by
  unfold unsetNames
  split <;> rfl

def bindTemplate (templates : Registry) (label name : String) (c : CommandDecl) :
    Step BoundCommand :=
  match templates.template? name with
  | none => .ofExcept (.error (.templateNotFound label name))
  | some t =>
    match t.bind name c.params with
    | .error e => .ofExcept (.error (.template label "template" e))
    | .ok bound =>
      ⟨{ warnings := bound.unusedParams.map (.unusedParameter label name) }, .ok bound⟩

def rawFields (templates : Registry) (label : String) (c : CommandDecl) : Step RawCommand :=
  match c.template with
  | none => pure c.inlineFields
  | some name => do return c.boundFields (← bindTemplate templates label name c)

def expandArgs (s : Setting) (scope : Scope) (parents : List Scope) (index : Nat) :
    List String → Except ResolveError (List String)
  | [] => .ok []
  | raw :: rest => do
    let value ← s.expandField scope parents s!"args[{index}]" raw
    return value :: (← s.expandArgs scope parents (index + 1) rest)

def expandWorkdir (s : Setting) (scope : Scope) (parents : List Scope) (inherited : Option String) :
    Option String → Except ResolveError (Option String)
  | none => .ok inherited
  | some raw => (s.expandField scope parents "workdir" raw).map some

/-- The resolved command of raw fields in its scope. Its env is that of all three scopes, the
inner ones winning. -/
def assemble (s : Setting) (g : Enclosing) (c : CommandDecl) (raw : RawCommand) (risk : RiskLevel)
    (scope : Scope) : Except ResolveError ResolvedCommand := do
  let cmd ← s.expandField scope g.parents "cmd" raw.cmd
  let args ← s.expandArgs scope g.parents 0 raw.args
  let workdir ← s.expandWorkdir scope g.parents g.workdir raw.workdir
  return {
    group := g.group
    name := c.name
    cmd, args
    env := (g.globals.env.union g.scope.env).union scope.env
    workdir, risk
    template := c.template }

def resolveRaw (s : Setting) (g : Enclosing) (c : CommandDecl) (raw : RawCommand) :
    Step ResolvedCommand := do
  let risk ← Step.ofExcept <| (RiskLevel.parseDeclared raw.riskLevel).mapError
    fun e => .declaration (g.label c) "risk_level" (.badRisk e)
  let scope ← Step.ofExcept <| s.resolveScope (.ofCommand g.group c raw.env) g.parents
  Step.note (s.unsetNames scope)
  Step.ofExcept <| s.assemble g c raw (risk.getD .low) scope

def resolveCommand (s : Setting) (templates : Registry) (g : Enclosing) (c : CommandDecl) :
    Step ResolvedCommand := do
  Step.ofExcept <| (c.checkFields g.group).mapError (.declaration (g.label c) "command")
  let raw ← rawFields templates (g.label c) c
  s.resolveRaw g c raw

end Setting
end ScopedCommands
