import ScopedCommands.Toml.Parse
import ScopedCommands.Yaml.Parse

namespace ScopedCommands

inductive FileNode
  | missing
  | directory (names : List String)
  | text (content : String)
  | binary
deriving DecidableEq

abbrev DocumentReader := String → Option Document

structure Files where
  node : String → FileNode
  yaml : DocumentReader
  toml : DocumentReader

instance : CoeFun Files fun _ => String → FileNode := ⟨Files.node⟩

def Files.ofNodes (node : String → FileNode) : Files := ⟨node, Yaml.parse, Toml.parse⟩

inductive FileError
  | unreadable
  | badYaml
  | badToml
deriving DecidableEq

/-- What the system or a reader has to say follows, and is not told here. -/
def FileError.message : FileError → String
  | .unreadable => "IO error: "
  | .badYaml => "YAML error: "
  | .badToml => "TOML error: "

namespace Files

def read (files : Files) (path : String) : Except FileError String :=
  match files path with
  | .text content => .ok content
  | _ => .error .unreadable

end Files
namespace Path

def parts (path : String) : List String :=
  ((path.toList.splitOn '/').filter fun p => p ≠ [] ∧ p ≠ ['.']).map String.ofList

def endsInSlash (path : String) : Bool :=
  match (path.toList.splitOn '/').getLast? with
  | some [] | some ['.'] => true
  | _ => false

/-- What follows the last dot, unless that dot is the first character or there is none. -/
def extensionOf (name : List Char) : Option String :=
  match name.reverse.span (· ≠ '.') with
  | (_, []) => none
  | (_, ['.']) => none
  | (after, _) => some (String.ofList after.reverse)

def extension (path : String) : Option String :=
  match (parts path).getLast? with
  | none => none
  | some ".." => none
  | some name => extensionOf name.toList

def join (directory name : String) : String :=
  if directory.toList.getLast? = some '/' then directory ++ name else directory ++ "/" ++ name

end Path

end ScopedCommands
