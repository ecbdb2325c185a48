import ScopedCommands.Dict

/-!
A configuration as it is declared: a global scope, groups of commands, and templates. Every text
is raw: `%`-references and (in templates) `$`-placeholders are still in it.

An absent list and an empty one differ wherever the type is optional: an absent allowlist
inherits, an empty one rejects.
-/
namespace ScopedCommands

inductive Parameter
  | text (value : String)
  | list (items : List String)
deriving DecidableEq

inductive ParameterKind
  | text
  | list
deriving DecidableEq

def Parameter.kind : Parameter → ParameterKind
  | text _ => .text
  | list _ => .list

namespace ParameterKind

def label : ParameterKind → String
  | text => "string"
  | list => "array"

def other : ParameterKind → ParameterKind
  | text => .list
  | list => .text

end ParameterKind

structure Template where
  cmd : String
  args : List String := []
  env : List String := []
  workdir : Option String := none
  riskLevel : Option String := none
  description : Option String := none
deriving DecidableEq

structure CommandDecl where
  name : String
  description : Option String := none
  cmd : Option String := none
  args : Option (List String) := none
  env : Option (List String) := none
  allowlist : Option (List String) := none
  imports : List String := []
  vars : List String := []
  workdir : Option String := none
  riskLevel : Option String := none
  template : Option String := none
  params : Dict Parameter := .empty
deriving DecidableEq

structure GroupDecl where
  name : String
  description : Option String := none
  allowlist : Option (List String) := none
  imports : List String := []
  vars : List String := []
  env : List String := []
  workdir : Option String := none
  commands : List CommandDecl := []
deriving DecidableEq

structure GlobalDecl where
  allowlist : Option (List String) := none
  imports : List String := []
  vars : List String := []
  env : List String := []
deriving DecidableEq

structure Config where
  version : Option String := none
  globals : GlobalDecl := {}
  groups : List GroupDecl := []
  templates : Dict Template := .empty
deriving DecidableEq

inductive ScopeLabel
  | globals
  | group (name : String)
  | command (group name : String)
deriving DecidableEq

def ScopeLabel.text : ScopeLabel → String
  | .globals => "global"
  | .group g => s!"group:{g}"
  | .command g c => s!"command:{g}/{c}"

def CommandDecl.usesTemplate (c : CommandDecl) : Bool := c.template.isSome

end ScopedCommands
