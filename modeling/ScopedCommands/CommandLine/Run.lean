import ScopedCommands.CommandLine.Arguments
import ScopedCommands.Config.Audit
import ScopedCommands.Files.Load
import ScopedCommands.Report.Basic

namespace ScopedCommands.CommandLine

structure Surroundings where
  environment : Dict String
  files : Files
  automatic : Dict String

inductive RunError
  | config (path : String) (cause : ReadError)
  | inlineTemplates (cause : TemplateError)
  | templateFiles (directory : String) (cause : LoadError)
  | resolution (cause : ResolveError)
  | invalid (problems : Nat)
  | incomplete (failures : Nat)
deriving DecidableEq

namespace RunError

/-- An error that wraps another one ends with the message of that one. -/
def message : RunError → String
  | .config path cause => s!"Failed to load configuration {path}: {cause.message}"
  | .inlineTemplates cause => cause.message
  | .templateFiles directory cause => s!"Failed to load templates from {directory}: {cause.message}"
  | .resolution cause =>
    match cause.cause? with
    | none => cause.message
    | some inner => s!"{cause.message}: {inner}"
  | .invalid n => s!"validation failed with {n} error(s)"
  | .incomplete n => s!"resolution incomplete: {n} failure(s)"

end RunError

/-- The links of the chain of causes that the exit codes tell apart. -/
inductive Cause
  | declaration
  | template
  | resolution (e : ResolveError)
  | invalid
  | incomplete
  | other
deriving DecidableEq

namespace Cause

def ofRead : ReadError → List Cause
  | .file _ => [declaration, other]
  | .unsupported _ => [declaration]

def ofLoad : LoadError → List Cause
  | .file _ => [template, other]
  | .template _ => [template]

def ofResolve (e : ResolveError) : List Cause :=
  resolution e :: match e with
    | .expansion _ _ _ | .unsafeValue _ _ _ | .policy _ => [other]
    | .declaration _ _ _ => [declaration]
    | .template _ _ _ | .registry _ => [template]
    | .templateNotFound _ _ | .groupNotFound _ => []

end Cause

def RunError.causes : RunError → List Cause
  | .config _ cause => .other :: Cause.ofRead cause
  | .inlineTemplates _ => [.template]
  | .templateFiles _ cause => .other :: Cause.ofLoad cause
  | .resolution cause => Cause.ofResolve cause
  | .invalid _ => [.invalid]
  | .incomplete _ => [.incomplete]

namespace ExitCode

def success : Nat := 0
def general : Nat := 1
def badArguments : Nat := 2
def badDeclaration : Nat := 3
def badTemplate : Nat := 4
def badValue : Nat := 5

def ofResolveError : ResolveError → Nat
  | .expansion _ _ _ | .unsafeValue _ _ _ | .policy _ => badValue
  | .template _ _ _ | .templateNotFound _ _ | .registry _ => badTemplate
  | .declaration _ _ _ => badDeclaration
  | .groupNotFound _ => badArguments

def ofCause? : Cause → Option Nat
  | .resolution e => some (ofResolveError e)
  | .template => some badTemplate
  | .declaration | .invalid => some badDeclaration
  | .incomplete => some badValue
  | .other => none

/-- The code of the outermost cause that has one. -/
def ofRunError (e : RunError) : Nat := (e.causes.findSome? ofCause?).getD general

@[simp] theorem ofRunError_config (path : String) (cause : ReadError) :
    ofRunError (.config path cause) = badDeclaration := by
  cases cause <;> rfl

@[simp] theorem ofRunError_inlineTemplates (cause : TemplateError) :
    ofRunError (.inlineTemplates cause) = badTemplate := rfl

@[simp] theorem ofRunError_templateFiles (directory : String) (cause : LoadError) :
    ofRunError (.templateFiles directory cause) = badTemplate := by
  cases cause <;> rfl

@[simp] theorem ofRunError_resolution (e : ResolveError) :
    ofRunError (.resolution e) = ofResolveError e := rfl

@[simp] theorem ofRunError_invalid (problems : Nat) :
    ofRunError (.invalid problems) = badDeclaration := rfl

@[simp] theorem ofRunError_incomplete (failures : Nat) :
    ofRunError (.incomplete failures) = badValue := rfl

end ExitCode

structure Outcome where
  lines : List String := []
  error : Option RunError := none
deriving DecidableEq

def Outcome.failed (error : RunError) : Outcome := { error := some error }

def loadConfig (here : Surroundings) (path : String) : Except RunError Config :=
  (Config.read here.files path).mapError (.config path)

def loadTemplates (here : Surroundings) (c : Config) (path : String) (directory : Option String) :
    Except RunError Registry := do
  let own ← (Registry.ofTemplates c.templates path).mapError .inlineTemplates
  match directory with
  | none => return own
  | some directory =>
    let loaded ← (Registry.loadDirectory here.files directory).mapError (.templateFiles directory)
    match own.merge loaded with
    | (.error e, _) => throw (.inlineTemplates e)
    | (.ok (), all) => return all

def prepare (here : Surroundings) (r : ResolveRequest) : Except RunError Resolution := do
  let c ← loadConfig here r.config
  let templates ← loadTemplates here c r.config r.templates
  (c.resolve templates {
    environment := here.environment
    automatic := here.automatic
    group := r.group
    keepGoing := r.keepGoing }).mapError .resolution

def reportLines (r : ResolveRequest) (resolution : Resolution) : List String :=
  let report := Report.ofResolution resolution r.showSecrets
  if r.asJson then [report.encode.toJson 0] else report.textLines

def resolve (here : Surroundings) (r : ResolveRequest) : Outcome :=
  match prepare here r with
  | .error e => .failed e
  | .ok resolution => {
      lines := reportLines r resolution
      error := if resolution.complete then none
        else some (.incomplete resolution.failures.length) }

def auditLines (audit : Audit) : List String :=
  ["📋 Validating declarations..."]
    ++ (if audit.valid then ["   ✅ Declarations are valid"]
      else "   ❌ Declaration validation failed:"
        :: audit.problems.map fun p => s!"      - {p.message}")
    ++ audit.advice.map fun a => s!"   ⚠️  {a.message}"

/-- Templates are looked at even if the declarations are not in order. -/
def validate (here : Surroundings) (path : String) (directory : Option String) : Outcome :=
  match loadConfig here path with
  | .error e => .failed e
  | .ok c =>
    let audit := c.audit
    let head := auditLines audit ++ ["🧩 Validating templates..."]
    match loadTemplates here c path directory with
    | .error e => { lines := head ++ [s!"   ❌ {e.message}"], error := some e }
    | .ok registry =>
      let lines := head ++ [s!"   ✅ {registry.size} template(s) loaded"]
      if audit.valid then { lines := lines ++ ["", "✅ Validation passed"] }
      else { lines, error := some (.invalid audit.problems.length) }

def templateLines (name : String) (entry : StoredTemplate) : List String :=
  let risk := entry.template.riskLevel.getD RiskLevel.low.label
  let description := match entry.template.description with
    | some text => s!" - {text}"
    | none => ""
  [s!"   {name} [{risk}]{description}", s!"      from {entry.source}"]

def templates (here : Surroundings) (directory : String) : Outcome :=
  match Registry.loadDirectory here.files directory with
  | .error e => .failed (.templateFiles directory e)
  | .ok registry =>
    if registry.isEmpty then { lines := [s!"⚠️  No templates found in {directory}"] }
    else { lines := s!"📋 {registry.size} template(s):"
        :: registry.entries.flatMap fun e => templateLines e.1 e.2 }

def programVersion : String := "0.1.0"

def helpLines : List String := [
  "Usage: cmdscope [OPTIONS] <COMMAND>",
  "",
  "Commands:",
  "  resolve    Expand every command and print the result",
  "  validate   Check declarations and templates without expanding",
  "  templates  List the templates found in a directory"]

def perform (here : Surroundings) : Request → Outcome
  | .resolve r => resolve here r
  | .validate path directory => validate here path directory
  | .templates directory => templates here directory
  | .version program => { lines := [s!"{program} {programVersion}"] }
  | .help => { lines := helpLines }

/-- What the program leaves behind. Without a request there is nothing but an exit code. -/
structure Result where
  exit : Nat
  output : String
  error : Option String
deriving DecidableEq

def Outcome.result (o : Outcome) : Result where
  exit := match o.error with
    | none => ExitCode.success
    | some e => ExitCode.ofRunError e
  output := String.join (o.lines.map (· ++ "\n"))
  error := o.error.map fun e => s!"❌ Error: {e.message}"

def run (here : Surroundings) (args : List String) : Result :=
  match parse here.environment args with
  | none => ⟨ExitCode.badArguments, "", none⟩
  | some request => (perform here request).result

end ScopedCommands.CommandLine
