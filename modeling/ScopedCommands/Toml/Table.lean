import ScopedCommands.Document.Basic

/-!
Tables while a text is read. What may be added to a table depends on how it came about: a header
names it, it lies on the path of another header, or keys with dots lead to it. Nothing is defined
twice.
-/
namespace ScopedCommands.Toml

inductive TableForm
  | header
  | passed
  | dotted
deriving DecidableEq

inductive Node
  | value (doc : Document)
  | table (form : TableForm) (entries : List (String × Node))
  | tables (items : List (List (String × Node)))

abbrev Entries := List (String × Node)

def Entries.find? (es : Entries) (key : String) : Option Node := es.lookup key

def Entries.put (es : Entries) (key : String) (node : Node) : Entries :=
  match es with
  | [] => [(key, node)]
  | (k, n) :: rest => if k = key then (k, node) :: rest else (k, n) :: put rest key node

/-- Changes the table at the end of a path of headers. The last table of an array stands for the
array, and tables on the way are made where there are none. -/
def atPath (change : Entries → Option Entries) : List String → Entries → Option Entries
  | [], es => change es
  | key :: path, es =>
    match es.find? key with
    | none => (atPath change path []).map fun inner => es.put key (.table .passed inner)
    | some (.table form inner) =>
      (atPath change path inner).map fun inner => es.put key (.table form inner)
    | some (.tables items) =>
      match items.getLast? with
      | none => none
      | some last =>
        (atPath change path last).map fun inner => es.put key (.tables (items.dropLast ++ [inner]))
    | some (.value _) => none

/-- Opens the table of a header. Only one that earlier headers passed through may be there. -/
def openTable (key : String) (es : Entries) : Option Entries :=
  match es.find? key with
  | none => some (es.put key (.table .header []))
  | some (.table .passed inner) => some (es.put key (.table .header inner))
  | some _ => none

def openArray (key : String) (es : Entries) : Option Entries :=
  match es.find? key with
  | none => some (es.put key (.tables [[]]))
  | some (.tables items) => some (es.put key (.tables (items ++ [[]])))
  | some _ => none

def define (key : String) (doc : Document) (es : Entries) : Option Entries :=
  match es.find? key with
  | none => some (es.put key (.value doc))
  | some _ => none

/-- Defines a key with dots. The table it ends in belongs to such keys alone. -/
def defineDotted (doc : Document) : List String → Entries → Option Entries
  | [], _ => none
  | [key], es => define key doc es
  | key :: path, es =>
    match es.find? key with
    | none => (defineDotted doc path []).map fun inner => es.put key (.table .dotted inner)
    | some (.table .header _) => none
    | some (.table form inner) =>
      if form = .passed ∧ path.length = 1 then none
      else (defineDotted doc path inner).map fun inner => es.put key (.table form inner)
    | some (.tables items) =>
      match items.getLast? with
      | none => none
      | some last =>
        if path.length = 1 then none
        else (defineDotted doc path last).map fun inner =>
          es.put key (.tables (items.dropLast ++ [inner]))
    | some (.value _) => none

mutual

def Node.document : Node → Document
  | .value doc => doc
  | .table _ entries => .map (documents entries)
  | .tables items => .list (tableDocuments items)

def documents : List (String × Node) → List (String × Document)
  | [] => []
  | (key, node) :: rest => (key, node.document) :: documents rest

def tableDocuments : List (List (String × Node)) → List Document
  | [] => []
  | entries :: rest => .map (documents entries) :: tableDocuments rest

end

end ScopedCommands.Toml
