import ScopedCommands.Config
import ScopedCommands.Placeholder
import ScopedCommands.Risk

namespace ScopedCommands

inductive EnvOrigin
  | definition
  | entry (index : Nat)
  | placeholder (index : Nat) (p : Placeholder)
  | element (index : Nat) (p : Placeholder) (position : Nat)
deriving DecidableEq

def EnvOrigin.text : EnvOrigin → String
  | .definition => "template env"
  | .entry i => s!"env[{i}]"
  | .placeholder i p => s!"env[{i}] ({p.text})"
  | .element i p j => s!"env[{i}] ({p.text}[{j}])"

inductive TemplateError
  | duplicateTemplate (name first second : String)
  | badName (name : String) (cause : NameError)
  | reservedName (name : String)
  | emptyCommand (template : String)
  | badPlaceholder (cause : PlaceholderError)
  | badParameter (name : String) (cause : NameError)
  | missingParameter (template param : String)
  | wrongKind (template param field : String) (actual : ParameterKind)
  | mixedList (template param field : String)
  | placeholderInKey (template entry : String)
  | malformedEntry (template entry : String) (origin : EnvOrigin)
  | badKey (template key : String) (origin : EnvOrigin) (cause : NameError)
  | duplicateKey (template key : String) (first second : EnvOrigin)
  | badRisk (template : String) (cause : RiskError)
deriving DecidableEq

open Text (quote)

def TemplateError.message : TemplateError → String
  | .duplicateTemplate name first second =>
    s!"Duplicate template name {quote name}: defined in {first} and {second}"
  | .badName name cause => s!"Invalid template name {quote name}: {cause.message}"
  | .reservedName name => s!"Template name {quote name} is reserved (starts with '__')"
  | .emptyCommand t => s!"Template {t}: cmd cannot be empty"
  | .badPlaceholder cause => cause.message
  | .badParameter name cause => s!"Invalid parameter name {quote name}: {cause.message}"
  | .missingParameter t param => s!"Template {t}: required parameter {quote param} is missing"
  | .wrongKind t param field actual =>
    s!"Template {t}: parameter {quote param} in {field} must be {actual.other.label}, "
      ++ s!"got {actual.label}"
  | .mixedList t param field =>
    s!"Template {t}: array parameter {quote param} must be the whole value of {field}"
  | .placeholderInKey t entry => s!"Template {t}: placeholder in env key of {quote entry}"
  | .malformedEntry t entry origin =>
    s!"Template {t}: malformed env entry {quote entry} in {origin.text} (expected KEY=VALUE)"
  | .badKey t key origin cause =>
    s!"Template {t}: invalid env key {quote key} in {origin.text}: {cause.message}"
  | .duplicateKey t key first second =>
    s!"Template {t}: duplicate env key {quote key} from {first.text} and {second.text}"
  | .badRisk t cause => s!"Template {t}: {cause.message}"

end ScopedCommands
