import ScopedCommands.Declaration

namespace ScopedCommands

inductive Problem
  | declaration (place : String) (cause : DeclarationError)
  | duplicateGroup (name : String)
  | emptyGroupName
  | duplicateCommand (group name : String)
deriving DecidableEq

inductive Advice
  | emptyAllowlist
  | noAllowlist
  | noCommands (group : String)
deriving DecidableEq

def Problem.message : Problem → String
  | .declaration place cause => s!"{place}: {cause.message}"
  | .duplicateGroup name => s!"Duplicate group name {Text.quote name}"
  | .emptyGroupName => "group name cannot be empty"
  | .duplicateCommand group name =>
    s!"Duplicate command name {Text.quote name} in group {Text.quote group}"

def Advice.message : Advice → String
  | .emptyAllowlist =>
    "global: env_allowlist is empty; every external environment reference will be rejected"
  | .noAllowlist => "global: env_allowlist is not set; external environment access is disabled "
      ++ "unless a group sets its own"
  | .noCommands group => s!"{(ScopeLabel.group group).text}: group has no commands"

structure Audit where
  problems : List Problem := []
  advice : List Advice := []
deriving DecidableEq

namespace Audit

instance : Append Audit := ⟨fun a b => ⟨a.problems ++ b.problems, a.advice ++ b.advice⟩⟩

def valid (a : Audit) : Bool := a.problems.isEmpty

def record {α : Type} (place : String) (result : Except DeclarationError α) : Audit :=
  match result with
  | .ok _ => {}
  | .error e => { problems := [.declaration place e] }

/-- The names that `from_env` introduces are taken for `vars`, as far as it was read. -/
def ofNames (place : String) (imports vars : List String) : Audit :=
  let read := Declaration.imports "from_env" .empty imports
  record place read.1 ++ record place (Declaration.vars "vars" read.2 vars).1

def ofEnv (place : String) (env : List String) : Audit :=
  record place (Declaration.environment "env" env)

def ofCommand (group : String) (c : CommandDecl) : Audit :=
  let place := (ScopeLabel.command group c.name).text
  record place (c.checkFields group)
    ++ ofNames place c.imports c.vars
    ++ (match c.env with
      | none => {}
      | some env => ofEnv place env)
    ++ record place ((RiskLevel.parseDeclared c.riskLevel).mapError .badRisk)

def ofCommands (group : String) (seen : NameSet) : List CommandDecl → Audit
  | [] => {}
  | c :: rest =>
    (if seen.contains c.name then { problems := [.duplicateCommand group c.name] } else {})
      ++ ofCommand group c
      ++ ofCommands group (seen.add c.name) rest

def ofGroup (g : GroupDecl) : Audit :=
  let place := (ScopeLabel.group g.name).text
  (if g.name = "" then { problems := [.emptyGroupName] } else {})
    ++ ofNames place g.imports g.vars
    ++ ofEnv place g.env
    ++ (if g.commands = [] then { advice := [.noCommands g.name] } else {})
    ++ ofCommands g.name .empty g.commands

def ofGroups (seen : NameSet) : List GroupDecl → Audit
  | [] => {}
  | g :: rest =>
    (if seen.contains g.name then { problems := [.duplicateGroup g.name] } else {})
      ++ ofGroup g
      ++ ofGroups (seen.add g.name) rest

def ofAllowlistNames : List String → Audit
  | [] => {}
  | name :: rest =>
    record "global.env_allowlist" ((Name.checkSyntax name).mapError .badName)
      ++ ofAllowlistNames rest

def ofGlobals (g : GlobalDecl) : Audit :=
  let place := ScopeLabel.globals.text
  ofNames place g.imports g.vars ++ ofEnv place g.env
    ++ match g.allowlist with
      | none => { advice := [.noAllowlist] }
      | some [] => { advice := [.emptyAllowlist] }
      | some names => ofAllowlistNames names

end Audit

def Config.audit (c : Config) : Audit := Audit.ofGlobals c.globals ++ Audit.ofGroups .empty c.groups

end ScopedCommands
