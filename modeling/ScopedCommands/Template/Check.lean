import ScopedCommands.Declaration
import ScopedCommands.Template.Error

namespace ScopedCommands.Template

inductive EnvShape
  | spread (p : Placeholder)
  | sole (p : Placeholder)
  | pair (key : String) (value : List FieldPart)
deriving DecidableEq

def parseField (raw : String) : Except TemplateError (List FieldPart) :=
  (Placeholder.parse raw).mapError .badPlaceholder

/-- The entry is read as a whole first: one that is a single placeholder has no key. -/
def classifyEntry (template entry : String) : Except TemplateError EnvShape := do
  let parts ← parseField entry
  match Placeholder.sole parts with
  | some p => return if p.kind = .spread then .spread p else .sole p
  | none =>
    match Assignment.parse entry with
    | none =>
      if Placeholder.allOf parts = [] then throw (.malformedEntry template entry .definition)
      else throw (.placeholderInKey template entry)
    | some ⟨key, value⟩ =>
      let keyParts ← parseField key
      if Placeholder.allOf keyParts = [] then return .pair key (← parseField value)
      else throw (.placeholderInKey template entry)

def checkName (name : String) : Except TemplateError Unit :=
  match Name.checkSyntax name with
  | .error e => .error (.badName name e)
  | .ok () => if Name.isReserved name then .error (.reservedName name) else .ok ()

def refuseSpread (template field : String) (parts : List FieldPart) : Except TemplateError Unit :=
  match Placeholder.firstSpread parts with
  | some p => .error (.mixedList template p.name field)
  | none => .ok ()

def checkSingle (template raw field : String) : Except TemplateError Unit := do
  refuseSpread template field (← parseField raw)

def checkArgs (template : String) (index : Nat) : List String → Except TemplateError Unit
  | [] => .ok ()
  | raw :: rest => do
    let parts ← parseField raw
    if (Placeholder.sole parts).isNone then refuseSpread template s!"args[{index}]" parts
    checkArgs template (index + 1) rest

def checkEnv (template : String) (index : Nat) : List String → Except TemplateError Unit
  | [] => .ok ()
  | entry :: rest => do
    match ← classifyEntry template entry with
    | .pair _ value => refuseSpread template s!"env[{index}]" value
    | _ => pure ()
    checkEnv template (index + 1) rest

def check (name : String) (t : Template) : Except TemplateError Unit := do
  checkName name
  if Text.allBlank t.cmd then throw (.emptyCommand name)
  checkSingle name t.cmd "cmd"
  match t.workdir with
  | some raw => checkSingle name raw "workdir"
  | none => pure ()
  checkArgs name 0 t.args
  checkEnv name 0 t.env
  match RiskLevel.parseDeclared t.riskLevel with
  | .error e => throw (.badRisk name e)
  | .ok _ => return ()

end ScopedCommands.Template
