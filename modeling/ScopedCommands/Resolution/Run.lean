import ScopedCommands.Resolution.Command

namespace ScopedCommands

structure ResolvedGroup where
  name : String
  scope : Scope
  workdir : Option String
  commands : List ResolvedCommand
deriving DecidableEq

structure Resolution where
  globals : Scope
  groups : List ResolvedGroup
  warnings : List Warning
  failures : List ResolveError
deriving DecidableEq

structure ResolveOptions where
  environment : Dict String := .empty
  automatic : Dict String := .empty
  rules : RuleSet := .standard
  matcher : Matcher := Pattern.matcher
  group : Option String := none
  keepGoing : Bool := false

namespace Setting

def redundantList (globals scope : Scope) : Findings :=
  if scope.allowlist.mode = .explicit ∧ scope.allowlist = globals.allowlist then
    .warn (.redundantAllowlist scope.label.text)
  else {}

@[simp] theorem failures_redundantList (globals scope : Scope) :
    (redundantList globals scope).failures = [] := by
  unfold redundantList
  split <;> rfl

def resolveGroup (s : Setting) (templates : Registry) (keepGoing : Bool) (globals : Scope)
    (g : GroupDecl) : Step ResolvedGroup := do
  let scope ← Step.ofExcept <| s.resolveScope (.ofGroup g) [globals]
  Step.note (redundantList globals scope ++ s.unsetNames scope)
  let workdir ← Step.ofExcept <| s.expandWorkdir scope [globals] none g.workdir
  let commands ← Step.collect keepGoing (s.resolveCommand templates ⟨g.name, globals, scope, workdir⟩)
    g.commands
  return ⟨g.name, scope, workdir, commands⟩

def globalFindings (s : Setting) (globals : Scope) : Findings :=
  (if globals.allowlist.mode = .rejecting then .warn .emptyGlobalAllowlist else {})
    ++ s.unsetNames globals

@[simp] theorem failures_globalFindings (s : Setting) (globals : Scope) :
    (s.globalFindings globals).failures = [] := by
  unfold globalFindings
  split <;> simp

end Setting

namespace ResolveOptions

def selects (o : ResolveOptions) (g : GroupDecl) : Bool :=
  match o.group with
  | none => true
  | some name => g.name = name

end ResolveOptions

namespace Config

def checkGroup (c : Config) : Option String → Except ResolveError Unit
  | none => .ok ()
  | some name =>
    if c.groups.any (·.name = name) then .ok () else .error (.groupNotFound name)

def setting (o : ResolveOptions) : Except ResolveError Setting :=
  match Safeguard.compile o.rules o.matcher with
  | .error e => .error (.policy e)
  | .ok safeguard => .ok ⟨safeguard, o.environment, o.automatic⟩

def resolveWith (c : Config) (templates : Registry) (o : ResolveOptions) (s : Setting) :
    Except ResolveError Resolution := do
  let globals ← s.resolveScope (.ofGlobals c.globals) []
  let run := Step.note (s.globalFindings globals) |>.bind fun () =>
    Step.collect o.keepGoing (s.resolveGroup templates o.keepGoing globals)
      (c.groups.filter o.selects)
  let groups ← run.outcome
  return ⟨globals, groups, run.findings.warnings, run.findings.failures⟩

def resolve (c : Config) (templates : Registry) (o : ResolveOptions) :
    Except ResolveError Resolution := do
  c.checkGroup o.group
  let s ← setting o
  c.resolveWith templates o s

end Config

namespace Resolution

def commands (r : Resolution) : List ResolvedCommand := r.groups.flatMap (·.commands)

def command? (r : Resolution) (group name : String) : Option ResolvedCommand :=
  r.commands.find? fun c => c.group = group && c.name = name

def group? (r : Resolution) (name : String) : Option ResolvedGroup :=
  r.groups.find? (·.name = name)

def complete (r : Resolution) : Bool := r.failures.isEmpty

end Resolution
end ScopedCommands
