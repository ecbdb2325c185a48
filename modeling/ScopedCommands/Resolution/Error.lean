import ScopedCommands.Declaration
import ScopedCommands.Expansion.Context
import ScopedCommands.Safety
import ScopedCommands.Template.Error

namespace ScopedCommands

inductive ResolveError
  | expansion (scope field : String) (cause : ExpansionError)
  | unsafeValue (scope field : String) (cause : PolicyError)
  | declaration (scope field : String) (cause : DeclarationError)
  | template (scope field : String) (cause : TemplateError)
  | templateNotFound (scope template : String)
  | groupNotFound (name : String)
  | policy (cause : PolicyError)
  | registry (cause : TemplateError)
deriving DecidableEq

namespace ResolveError

def scope? : ResolveError → Option String
  | .expansion scope _ _ | .unsafeValue scope _ _ | .declaration scope _ _ | .template scope _ _
  | .templateNotFound scope _ => some scope
  | .groupNotFound _ | .policy _ | .registry _ => none

def field? : ResolveError → Option String
  | .expansion _ field _ | .unsafeValue _ field _ | .declaration _ field _
  | .template _ field _ => some field
  | .templateNotFound _ _ | .groupNotFound _ | .policy _ | .registry _ => none

def cause? : ResolveError → Option String
  | .expansion _ _ cause => some cause.message
  | .unsafeValue _ _ cause => some cause.message
  | .declaration _ _ cause => some cause.message
  | .template _ _ cause => some cause.message
  | .policy cause => some cause.message
  | .registry cause => some cause.message
  | .templateNotFound _ _ | .groupNotFound _ => none

def message : ResolveError → String
  | .expansion scope field cause => s!"{scope}: {field}: {cause.message}"
  | .unsafeValue scope field cause => s!"{scope}: {field}: {cause.message}"
  | .declaration scope field cause => s!"{scope}: {field}: {cause.message}"
  | .template scope field cause => s!"{scope}: {field}: {cause.message}"
  | .templateNotFound scope wanted => s!"{scope}: template {Text.quote wanted} not found"
  | .groupNotFound name => s!"Group not found: {name}"
  | .policy cause => s!"Security policy error: {cause.message}"
  | .registry cause => s!"Template error: {cause.message}"

end ResolveError
end ScopedCommands
