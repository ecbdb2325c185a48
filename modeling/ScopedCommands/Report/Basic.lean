import ScopedCommands.Config.Encode
import ScopedCommands.Document.Json
import ScopedCommands.Resolution.Run

namespace ScopedCommands

namespace Redaction

def mask : String := "[REDACTED]"

def markers : List String := ["PASSWORD", "SECRET", "TOKEN", "KEY", "CREDENTIAL", "AUTH"]

def occursIn (word : List Char) : List Char → Bool
  | [] => word.isEmpty
  | c :: rest => word.isPrefixOf (c :: rest) || occursIn word rest

/-- The case of ASCII letters does not count. -/
def isSensitive (name : String) : Bool :=
  let upper := name.toList.map Char.toUpper
  markers.any fun m => occursIn m.toList upper

def redact (env : Dict String) : Dict String :=
  env.map fun name value => if isSensitive name then mask else value

end Redaction

structure Report where
  commands : List ResolvedCommand
  warnings : List Warning
  failures : List ResolveError

def Warning.encode : Warning → Document
  | .unusedParameter scope template param => .map [
      ("kind", .text "unused_template_parameter"), ("scope", .text scope),
      ("template", .text template), ("param", .text param)]
  | .emptyGlobalAllowlist => .map [("kind", .text "empty_global_allowlist")]
  | .redundantAllowlist scope => .map [
      ("kind", .text "redundant_allowlist"), ("scope", .text scope)]
  | .unsetVariable scope name => .map [
      ("kind", .text "allowlisted_variable_unset"), ("scope", .text scope), ("name", .text name)]

def ResolvedCommand.encode (c : ResolvedCommand) : Document :=
  let optionalField := fun name value => (value.map fun s => (name, Document.text s)).toList
  .map ([
    ("group", .text c.group),
    ("name", .text c.name),
    ("cmd", .text c.cmd),
    ("args", .ofTexts c.args),
    ("env", .ofDict .text c.env)]
    ++ optionalField "workdir" c.workdir
    ++ [("risk_level", .text c.risk.label)]
    ++ optionalField "template" c.template)

namespace Report

def ofResolution (r : Resolution) (showSecrets : Bool) : Report where
  commands := if showSecrets then r.commands
    else r.commands.map fun c => { c with env := Redaction.redact c.env }
  warnings := r.warnings
  failures := r.failures

def encode (r : Report) : Document := .map [
  ("commands", .list (r.commands.map ResolvedCommand.encode)),
  ("warnings", .list (r.warnings.map Warning.encode)),
  ("failures", .ofTexts (r.failures.map ResolveError.message))]

def shownArgument (arg : String) : String :=
  if arg = "" ∨ arg.toList.any Text.isBlank then Text.quote arg else arg

def commandLine (cmd : String) (args : List String) : String :=
  args.foldl (fun line arg => line ++ " " ++ shownArgument arg) cmd

def commandLines (c : ResolvedCommand) : List String :=
  [s!"📋 {c.group}/{c.name} [{c.risk.label}]"]
    ++ (c.template.map fun t => s!"   template: {t}").toList
    ++ [s!"   $ {commandLine c.cmd c.args}"]
    ++ (c.workdir.map fun w => s!"   workdir: {w}").toList
    ++ c.env.entries.map fun e => s!"   {e.1}={e.2}"

def textLines (r : Report) : List String :=
  r.commands.flatMap commandLines
    ++ r.warnings.map (fun w => s!"⚠️  {w.message}")
    ++ r.failures.map (fun e => s!"❌ {e.message}")
    ++ if r.failures.isEmpty then [s!"✅ {r.commands.length} command(s) resolved"] else []

end Report
end ScopedCommands
