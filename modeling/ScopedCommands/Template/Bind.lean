import ScopedCommands.Template.Check
import ScopedCommands.Text.Basic

/-!
Binding: a template and the parameters of a call give the raw fields of a command. References in
the values stay as they are. Each parameter that a placeholder asks for is noted as used.
-/
namespace ScopedCommands

structure BoundCommand where
  template : String
  cmd : String
  args : List String
  env : List String
  workdir : Option String
  riskLevel : Option String
  unusedParams : List String
deriving DecidableEq

namespace Template

structure Call where
  template : String
  params : Dict Parameter

abbrev Bind := StateT NameSet (Except TemplateError)

namespace Call

/-- The parameter of that name, noted as used if the call gives it. -/
def take (call : Call) (name : String) : Bind (Option Parameter) :=
  match call.params.get? name with
  | none => pure none
  | some value => do
    modify (·.add name)
    return some value

/-- A text parameter; without one only an optional placeholder has no value. -/
def scalar (call : Call) (p : Placeholder) (field : String) (sole : Bool) :
    Bind (Option String) := do
  match ← call.take p.name with
  | some (.text value) => return some value
  | some (.list _) =>
    if sole then throw (.wrongKind call.template p.name field .list)
    else throw (.mixedList call.template p.name field)
  | none =>
    if p.kind = .required then throw (.missingParameter call.template p.name) else return none

def spread (call : Call) (name field : String) : Bind (List String) := do
  match ← call.take name with
  | some (.list items) => return items
  | some (.text _) => throw (.wrongKind call.template name field .text)
  | none => return []

def text (call : Call) (field : String) : List FieldPart → Bind String
  | [] => return ""
  | .text t :: rest => return t ++ (← call.text field rest)
  | .placeholder p :: rest => do
    if p.kind = .spread then throw (.mixedList call.template p.name field)
    else
      let value ← call.scalar p field false
      return value.getD "" ++ (← call.text field rest)

/-- A placeholder that is the whole field drops the field if it is optional and has no text. -/
def sole (call : Call) (p : Placeholder) (field : String) : Bind (Option String) := do
  match ← call.scalar p field true with
  | none => return none
  | some value => return if value = "" ∧ p.kind ≠ .required then none else some value

def soleOrText (call : Call) (parts : List FieldPart) (field : String) :
    Bind (Option String) :=
  match Placeholder.sole parts with
  | some p => call.sole p field
  | none => return some (← call.text field parts)

def single (call : Call) (raw field : String) : Bind (Option String) := do
  let parts ← parseField raw
  match Placeholder.firstSpread parts with
  | some p => throw (.mixedList call.template p.name field)
  | none => call.soleOrText parts field

def several (call : Call) (raw field : String) : Bind (List String) := do
  let parts ← parseField raw
  match Placeholder.sole parts with
  | some p =>
    if p.kind = .spread then call.spread p.name field
    else return (← call.sole p field).toList
  | none => return [← call.text field parts]

def args (call : Call) (index : Nat) : List String → Bind (List String)
  | [] => return []
  | raw :: rest => do
    let values ← call.several raw s!"args[{index}]"
    return values ++ (← call.args (index + 1) rest)

def elements (index : Nat) (p : Placeholder) (position : Nat) :
    List String → List (String × EnvOrigin)
  | [] => []
  | item :: rest => (item, .element index p position) :: elements index p (position + 1) rest

def envEntry (call : Call) (index : Nat) (raw : String) : Bind (List (String × EnvOrigin)) := do
  let field := s!"env[{index}]"
  match ← classifyEntry call.template raw with
  | .spread p => return elements index p 0 (← call.spread p.name field)
  | .sole p => return (← call.sole p field).toList.map (·, .placeholder index p)
  | .pair key value => return [(key ++ "=" ++ (← call.text field value), .entry index)]

def envEntries (call : Call) (index : Nat) : List String → Bind (List (String × EnvOrigin))
  | [] => return []
  | raw :: rest => do
    let entries ← call.envEntry index raw
    return entries ++ (← call.envEntries (index + 1) rest)

/-- Substituted entries are declarations, with keys that differ. -/
def checkEnv (template : String) (seen : Dict EnvOrigin) :
    List (String × EnvOrigin) → Except TemplateError Unit
  | [] => .ok ()
  | (entry, origin) :: rest =>
    match Assignment.parse entry with
    | none => .error (.malformedEntry template entry origin)
    | some ⟨key, _⟩ =>
      match Name.check key with
      | .error e => .error (.badKey template key origin e)
      | .ok () =>
        match seen.get? key with
        | some first => .error (.duplicateKey template key first origin)
        | none => checkEnv template (seen.insert key origin) rest

def env (call : Call) (entries : List String) : Bind (List String) := do
  let bound ← call.envEntries 0 entries
  checkEnv call.template .empty bound
  return bound.map (·.1)

def checkParams : List String → Except TemplateError Unit
  | [] => .ok ()
  | name :: rest =>
    match Name.check name with
    | .error e => .error (.badParameter name e)
    | .ok () => checkParams rest

def optionalField (call : Call) (field : String) : Option String → Bind (Option String)
  | none => return none
  | some raw => call.single raw field

def fields (call : Call) (t : Template) :
    Bind (String × List String × List String × Option String) := do
  let cmd := (← call.single t.cmd "cmd").getD ""
  if Text.allBlank cmd then throw (.emptyCommand call.template)
  let args ← call.args 0 t.args
  let env ← call.env t.env
  let workdir ← call.optionalField "workdir" t.workdir
  return (cmd, args, env, workdir)

end Call

def bind (name : String) (t : Template) (params : Dict Parameter) :
    Except TemplateError BoundCommand := do
  Call.checkParams params.keys
  let ((cmd, args, env, workdir), used) ← (Call.fields ⟨name, params⟩ t).run .empty
  return {
    template := name
    cmd, args, env, workdir
    riskLevel := t.riskLevel
    unusedParams := params.keys.filter fun p => !used.contains p }

end Template
end ScopedCommands
