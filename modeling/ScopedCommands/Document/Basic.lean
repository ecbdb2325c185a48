/-!
Documents: the data that a configuration file holds, whatever its notation. A scalar keeps the
text it was written with.
-/
namespace ScopedCommands

inductive ScalarKind
  | null
  | boolean
  | number
  | text
deriving DecidableEq

inductive Document
  | scalar (kind : ScalarKind) (text : String)
  | list (items : List Document)
  | map (entries : List (String × Document))

namespace Document

abbrev Entries := List (String × Document)

def null : Document := .scalar .null "null"

instance : Inhabited Document := ⟨null⟩

def text (s : String) : Document := .scalar .text s

end Document
end ScopedCommands
