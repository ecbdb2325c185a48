import ScopedCommands.Config
import ScopedCommands.Document.Basic

namespace ScopedCommands

namespace Document

def ofTexts (items : List String) : Document := .list (items.map text)

def ofOption {α : Type} (encode : α → Document) : Option α → Document
  | none => null
  | some a => encode a

def ofDict {α : Type} (encode : α → Document) (d : Dict α) : Document :=
  .map (d.entries.map fun e => (e.1, encode e.2))

end Document

open Document

def Parameter.encode : Parameter → Document
  | .text s => Document.text s
  | .list items => ofTexts items

def Template.encode (t : Template) : Document := .map [
  ("cmd", text t.cmd),
  ("args", ofTexts t.args),
  ("env", ofTexts t.env),
  ("workdir", ofOption text t.workdir),
  ("risk_level", ofOption text t.riskLevel),
  ("description", ofOption text t.description)]

def CommandDecl.encode (c : CommandDecl) : Document := .map [
  ("name", text c.name),
  ("description", ofOption text c.description),
  ("cmd", ofOption text c.cmd),
  ("args", ofOption ofTexts c.args),
  ("env", ofOption ofTexts c.env),
  ("env_allowlist", ofOption ofTexts c.allowlist),
  ("from_env", ofTexts c.imports),
  ("vars", ofTexts c.vars),
  ("workdir", ofOption text c.workdir),
  ("risk_level", ofOption text c.riskLevel),
  ("template", ofOption text c.template),
  ("params", ofDict Parameter.encode c.params)]

def GroupDecl.encode (g : GroupDecl) : Document := .map [
  ("name", text g.name),
  ("description", ofOption text g.description),
  ("env_allowlist", ofOption ofTexts g.allowlist),
  ("from_env", ofTexts g.imports),
  ("vars", ofTexts g.vars),
  ("env", ofTexts g.env),
  ("workdir", ofOption text g.workdir),
  ("commands", .list (g.commands.map CommandDecl.encode))]

def GlobalDecl.encode (g : GlobalDecl) : Document := .map [
  ("env_allowlist", ofOption ofTexts g.allowlist),
  ("from_env", ofTexts g.imports),
  ("vars", ofTexts g.vars),
  ("env", ofTexts g.env)]

def Config.encode (c : Config) : Document := .map [
  ("version", ofOption text c.version),
  ("global", c.globals.encode),
  ("groups", .list (c.groups.map GroupDecl.encode)),
  ("templates", ofDict Template.encode c.templates)]

end ScopedCommands
