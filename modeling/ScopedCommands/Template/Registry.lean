import ScopedCommands.Template.Check

namespace ScopedCommands

structure StoredTemplate where
  template : Template
  source : String
deriving DecidableEq

abbrev Registry := Dict StoredTemplate

namespace Registry

def empty : Registry := Dict.empty

def template? (r : Registry) (name : String) : Option Template := (r.get? name).map (·.template)

def source? (r : Registry) (name : String) : Option String := (r.get? name).map (·.source)

/-- Adds what was checked already. -/
def store (r : Registry) (name : String) (entry : StoredTemplate) :
    Except TemplateError Registry :=
  match r.get? name with
  | some existing => .error (.duplicateTemplate name existing.source entry.source)
  | none => .ok (r.insert name entry)

/-- Adds in place: the outcome, and what is in the registry then. A name that is taken is reported
before the template is looked at. -/
def add (r : Registry) (name : String) (t : Template) (source : String) :
    Except TemplateError Unit × Registry :=
  match r.get? name with
  | some existing => (.error (.duplicateTemplate name existing.source source), r)
  | none =>
    match t.check name with
    | .error e => (.error e, r)
    | .ok () => (.ok (), r.insert name ⟨t, source⟩)

def register (r : Registry) (name : String) (t : Template) (source : String) :
    Except TemplateError Registry :=
  match r.add name t source with
  | (.error e, _) => .error e
  | (.ok (), after) => .ok after

def registerAll (source : String) (r : Registry) :
    List (String × Template) → Except TemplateError Registry
  | [] => .ok r
  | (name, t) :: rest =>
    match r.register name t source with
    | .error e => .error e
    | .ok r => registerAll source r rest

def ofTemplates (templates : Dict Template) (source : String) : Except TemplateError Registry :=
  registerAll source empty templates.entries

/-- Stores entries in order until one collides, and keeps those before it. -/
def storeAll (r : Registry) : List (String × StoredTemplate) → Except TemplateError Unit × Registry
  | [] => (.ok (), r)
  | (name, entry) :: rest =>
    match r.store name entry with
    | .error e => (.error e, r)
    | .ok r => storeAll r rest

def merge (a b : Registry) : Except TemplateError Unit × Registry := storeAll a b.entries

end Registry
end ScopedCommands
