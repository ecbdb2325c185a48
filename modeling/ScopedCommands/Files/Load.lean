import ScopedCommands.Config.Decode
import ScopedCommands.Files.Basic
import ScopedCommands.Template.Registry

/-!
Configurations and templates from files. The extension of a configuration file decides its
notation; templates are in TOML if their file says so and in YAML otherwise.
-/
namespace ScopedCommands

def decodeYaml {α : Type} (d : Decoder α) (text : String) (read : DocumentReader := Yaml.parse) :
    Except FileError α :=
  match (read text).bind (d .loose) with
  | some a => .ok a
  | none => .error .badYaml

def decodeToml {α : Type} (d : Decoder α) (text : String) (read : DocumentReader := Toml.parse) :
    Except FileError α :=
  match (read text).bind (d .strict) with
  | some a => .ok a
  | none => .error .badToml

inductive ReadError
  | file (cause : FileError)
  | unsupported (path : String)
deriving DecidableEq

def ReadError.message : ReadError → String
  | .file cause => cause.message
  | .unsupported path => s!"Unsupported configuration format: {path}"

def Config.read (files : Files) (path : String) : Except ReadError Config := do
  let text ← (files.read path).mapError .file
  match Path.extension path with
  | some "yaml" | some "yml" => (decodeYaml Config.decode text files.yaml).mapError .file
  | some "toml" => (decodeToml Config.decode text files.toml).mapError .file
  | _ => throw (.unsupported path)

inductive LoadError
  | file (cause : FileError)
  | template (cause : TemplateError)
deriving DecidableEq

def LoadError.message : LoadError → String
  | .file cause => cause.message
  | .template cause => cause.message

namespace Registry

def loadFile (files : Files) (path : String) : Except LoadError Registry := do
  let text ← (files.read path).mapError .file
  let templates ← (match Path.extension path with
    | some "toml" => decodeToml Template.decodeFile text files.toml
    | _ => decodeYaml Template.decodeFile text files.yaml).mapError .file
  (ofTemplates templates path).mapError .template

def isTemplateFile (files : Files) (path : String) : Bool :=
  (match files path with
    | .text _ | .binary => true
    | .directory _ | .missing => false)
    && [some "yaml", some "yml", some "toml"].contains (Path.extension path)

def loadFiles (files : Files) (r : Registry) : List String → Except LoadError Registry
  | [] => .ok r
  | path :: rest => do
    let loaded ← loadFile files path
    match r.merge loaded with
    | (.error e, _) => throw (.template e)
    | (.ok (), r) => loadFiles files r rest

def filesIn (files : Files) (directory : String) : List String :=
  match files directory with
  | .directory names =>
    ((NameSet.ofNames names).keys.map (Path.join directory)).filter (isTemplateFile files)
  | _ => []

/-- A directory that is not there has no templates. -/
def loadDirectory (files : Files) (directory : String) : Except LoadError Registry :=
  loadFiles files empty (filesIn files directory)

end Registry
end ScopedCommands
