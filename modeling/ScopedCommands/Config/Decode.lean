import ScopedCommands.Config
import ScopedCommands.Document.Decode

/-!
Reading a configuration out of a document. Commands and templates refuse unknown keys, the other
records pass over them.
-/
namespace ScopedCommands

open Decoder

def Parameter.decode : Decoder Parameter
  | _, .scalar .text s => some (.text s)
  | _, .list items => (items.mapM (Decoder.text .strict)).map .list
  | _, _ => none

def Template.decode : Decoder Template := fun t doc => do
  let f ← fields ["cmd", "args", "env", "workdir", "risk_level", "description"] true t doc
  return {
    cmd := ← required text t f "cmd"
    args := ← orElse texts [] t f "args"
    env := ← orElse texts [] t f "env"
    workdir := ← orElse (optional text) none t f "workdir"
    riskLevel := ← orElse (optional text) none t f "risk_level"
    description := ← orElse (optional text) none t f "description" }

def CommandDecl.decode : Decoder CommandDecl := fun t doc => do
  let f ← fields ["name", "description", "cmd", "args", "env", "env_allowlist", "from_env", "vars",
    "workdir", "risk_level", "template", "params"] true t doc
  return {
    name := ← required text t f "name"
    description := ← orElse (optional text) none t f "description"
    cmd := ← orElse (optional text) none t f "cmd"
    args := ← orElse (optional texts) none t f "args"
    env := ← orElse (optional texts) none t f "env"
    allowlist := ← orElse (optional texts) none t f "env_allowlist"
    imports := ← orElse texts [] t f "from_env"
    vars := ← orElse texts [] t f "vars"
    workdir := ← orElse (optional text) none t f "workdir"
    riskLevel := ← orElse (optional text) none t f "risk_level"
    template := ← orElse (optional text) none t f "template"
    params := ← orElse (dict Parameter.decode) .empty t f "params" }

def GroupDecl.decode : Decoder GroupDecl := fun t doc => do
  let f ← fields ["name", "description", "env_allowlist", "from_env", "vars", "env", "workdir",
    "commands"] false t doc
  return {
    name := ← required text t f "name"
    description := ← orElse (optional text) none t f "description"
    allowlist := ← orElse (optional texts) none t f "env_allowlist"
    imports := ← orElse texts [] t f "from_env"
    vars := ← orElse texts [] t f "vars"
    env := ← orElse texts [] t f "env"
    workdir := ← orElse (optional text) none t f "workdir"
    commands := ← orElse (list CommandDecl.decode) [] t f "commands" }

def GlobalDecl.decode : Decoder GlobalDecl := fun t doc => do
  let f ← fields ["env_allowlist", "from_env", "vars", "env"] false t doc
  return {
    allowlist := ← orElse (optional texts) none t f "env_allowlist"
    imports := ← orElse texts [] t f "from_env"
    vars := ← orElse texts [] t f "vars"
    env := ← orElse texts [] t f "env" }

def Config.decode : Decoder Config := fun t doc => do
  let f ← fields ["version", "global", "groups", "templates"] false t doc
  return {
    version := ← orElse (optional text) none t f "version"
    globals := ← orElse GlobalDecl.decode {} t f "global"
    groups := ← orElse (list GroupDecl.decode) [] t f "groups"
    templates := ← orElse (dict Template.decode) .empty t f "templates" }

def Template.decodeFile : Decoder (Dict Template) := fun t doc => do
  let f ← fields ["templates"] true t doc
  orElse (dict Template.decode) .empty t f "templates"

end ScopedCommands
