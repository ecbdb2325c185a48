import ScopedCommands.Expansion.Expand
import ScopedCommands.Resolution.Error

/-!
Resolution of one scope. Its imports come first, then its variables in the order of their
declaration, then its env entries. A text sees the variables resolved before it, then those of the
enclosing scopes, nearest first, then the automatic variables, then the process environment as far
as the allowlist goes. Every value is checked against the safety rules before it is kept.
-/
namespace ScopedCommands

structure ScopeDecl where
  label : ScopeLabel
  allowlist : Option (List String) := none
  imports : List String := []
  vars : List String := []
  env : List String := []
deriving DecidableEq

namespace ScopeDecl

def ofGlobals (g : GlobalDecl) : ScopeDecl :=
  ⟨.globals, g.allowlist, g.imports, g.vars, g.env⟩

def ofGroup (g : GroupDecl) : ScopeDecl :=
  ⟨.group g.name, g.allowlist, g.imports, g.vars, g.env⟩

/-- The env of a template call comes from its template. -/
def ofCommand (group : String) (c : CommandDecl) (env : List String) : ScopeDecl :=
  ⟨.command group c.name, c.allowlist, c.imports, c.vars, env⟩

end ScopeDecl

structure Scope where
  label : ScopeLabel
  vars : Dict String
  env : Dict String
  allowlist : Allowlist
deriving DecidableEq

structure Setting where
  safeguard : Safeguard
  environment : Dict String
  automatic : Dict String

namespace Setting

/-- The value of a name that needs no look at the process environment. -/
def visible (s : Setting) (current : Dict String) (parents : List Scope) (name : String) :
    Option String :=
  match current.get? name with
  | some value => some value
  | none =>
    match parents.findSome? (·.vars.get? name) with
    | some value => some value
    | none => s.automatic.get? name

/-- Values are never read a second time for references. -/
def lookup (s : Setting) (current : Dict String) (parents : List Scope) : Lookup := fun name =>
  (s.visible current parents name).map .resolved

def context (s : Setting) (label : ScopeLabel) (allowlist : Allowlist) (field : String) :
    Context :=
  { scope := label.text, field, external := some ⟨s.environment, allowlist⟩ }

def checkSafe (s : Setting) (label : ScopeLabel) (field name value : String) :
    Except ResolveError Unit :=
  (s.safeguard.check name value).mapError (.unsafeValue label.text field)

variable (s : Setting) (label : ScopeLabel) (allowlist : Allowlist) (parents : List Scope)

/-- A variable of the process environment that is not set counts as empty. -/
def addImport (vars : Dict String) (a : Assignment) : Except ResolveError (Dict String) := do
  let field := s!"from_env.{a.name}"
  if allowlist.allows a.value then
    let value := (s.environment.get? a.value).getD ""
    s.checkSafe label field a.name value
    return vars.insert a.name value
  else
    throw (.expansion label.text field (.notAllowed label.text a.name a.value))

def expandVar (vars : Dict String) (a : Assignment) : Except ExpansionError String :=
  match (s.context label allowlist s!"vars.{a.name}").enter a.name with
  | .error e => .error e
  | .ok inner => expandIn inner (s.lookup vars parents) a.value

def addVar (vars : Dict String) (a : Assignment) : Except ResolveError (Dict String) := do
  let field := s!"vars.{a.name}"
  let value ← (s.expandVar label allowlist parents vars a).mapError (.expansion label.text field)
  s.checkSafe label field a.name value
  return vars.insert a.name value

def addEnv (vars env : Dict String) (a : Assignment) : Except ResolveError (Dict String) := do
  let field := s!"env.{a.name}"
  let value ← (expandIn (s.context label allowlist field) (s.lookup vars parents) a.value).mapError
    (.expansion label.text field)
  s.checkSafe label field a.name value
  return env.insert a.name value

end Setting

structure Declarations where
  imports : List Assignment
  vars : List Assignment
  env : List Assignment
deriving DecidableEq

namespace ScopeDecl

def declarations (d : ScopeDecl) : Except ResolveError Declarations := do
  let fail := fun field => ResolveError.declaration d.label.text field
  let imports := Declaration.imports "from_env" .empty d.imports
  let imported ← imports.1.mapError (fail "from_env")
  let vars ← (Declaration.vars "vars" imports.2 d.vars).1.mapError (fail "vars")
  let env ← (Declaration.environment "env" d.env).mapError (fail "env")
  return ⟨imported, vars, env⟩

end ScopeDecl

namespace Setting

def resolveScope (s : Setting) (d : ScopeDecl) (parents : List Scope) :
    Except ResolveError Scope := do
  let allowlist := Allowlist.resolve d.allowlist (parents.head?.map (·.allowlist))
  let read ← d.declarations
  let imported ← read.imports.foldlM (s.addImport d.label allowlist) .empty
  let vars ← read.vars.foldlM (s.addVar d.label allowlist parents) imported
  let env ← read.env.foldlM (s.addEnv d.label allowlist parents vars) .empty
  return ⟨d.label, vars, env, allowlist⟩

/-- The text of a command field in a resolved scope. It is not checked against the rules. -/
def expandField (s : Setting) (scope : Scope) (parents : List Scope) (field raw : String) :
    Except ResolveError String :=
  (expandIn (s.context scope.label scope.allowlist field) (s.lookup scope.vars parents) raw).mapError
    (.expansion scope.label.text field)

end Setting
end ScopedCommands
