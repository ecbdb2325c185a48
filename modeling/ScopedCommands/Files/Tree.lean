import ScopedCommands.Dict
import ScopedCommands.Files.Basic

/-!
A tree of files in memory. Relative paths start at its root, and so do absolute ones that begin
with the root's own path; there is nothing else.
-/
namespace ScopedCommands

inductive TreeItem
  | directory
  | text (content : String)
  | binary
deriving DecidableEq

structure FileTree where
  root : String
  items : List (List String × TreeItem) := []

namespace FileTree

def children (t : FileTree) (directory : List String) : List String :=
  (t.items.filterMap fun item =>
    if directory.isPrefixOf item.1 then (item.1.drop directory.length).head? else none).eraseDups

def isDirectory (t : FileTree) (place : List String) : Bool :=
  place = [] || t.items.any fun item =>
    (item.1 = place && item.2 = .directory) || (place.isPrefixOf item.1 && item.1 != place)

def at? (t : FileTree) (place : List String) : FileNode :=
  if t.isDirectory place then .directory (t.children place)
  else match t.items.lookup place with
    | some (.text content) => .text content
    | some .binary => .binary
    | some .directory | none => .missing

def walk (t : FileTree) (place : List String) : List String → Option (List String)
  | [] => some place
  | part :: rest =>
    if !t.isDirectory place then none
    else if part = ".." then if place = [] then none else t.walk place.dropLast rest
    else t.walk (place ++ [part]) rest

def below (t : FileTree) (path : String) : Option String :=
  let root := t.root.toList
  let cs := path.toList
  if cs = [] then none
  else if root.isPrefixOf cs ∧ ((cs.drop root.length).headD '/') = '/' then
    some (String.ofList (cs.drop root.length))
  else if cs.head? = some '/' then none
  else some path

def view (t : FileTree) : Files := .ofNodes fun path =>
  match (t.below path).bind fun p => t.walk [] (Path.parts p) with
  | none => .missing
  | some place =>
    match t.at? place with
    | .directory names => .directory names
    | node => if Path.endsInSlash path then .missing else node

end FileTree
end ScopedCommands
