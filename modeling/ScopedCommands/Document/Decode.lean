import ScopedCommands.Document.Basic
import ScopedCommands.Dict

/-!
Reading typed values out of documents. Notations without type marks read `1` and `true` as text
where text is wanted, and a value left out as an empty collection; the others take each scalar
for what it is.
-/
namespace ScopedCommands

inductive Typing
  | strict
  | loose
deriving DecidableEq

abbrev Decoder (α : Type) := Typing → Document → Option α

namespace Decoder

variable {α : Type}

def text : Decoder String
  | _, .scalar .text s => some s
  | .loose, .scalar _ s => some s
  | _, _ => none

def boolean : Decoder Bool
  | _, .scalar .boolean s => some (s = "true")
  | _, _ => none

def optional (d : Decoder α) : Decoder (Option α)
  | _, .scalar .null _ => some none
  | t, doc => (d t doc).map some

def list (d : Decoder α) : Decoder (List α)
  | t, .list items => items.mapM (d t)
  | .loose, .scalar .null "" => some []
  | _, _ => none

def texts : Decoder (List String) := list text

def dict (d : Decoder α) : Decoder (Dict α)
  | t, .map entries => (entries.mapM fun e => (d t e.2).map (e.1, ·)).map Dict.ofList
  | .loose, .scalar .null "" => some .empty
  | _, _ => none

/-- The entries of a record with the given field names. No field is given twice, and a closed
record has no other keys. With type marks a list gives the fields in order. -/
def fields (names : List String) (closed : Bool) : Decoder Document.Entries
  | _, .map entries =>
    let known := entries.filter fun e => names.contains e.1
    if closed && known.length != entries.length then none
    else if (known.map (·.1)).Nodup then some known
    else none
  | .strict, .list items =>
    if items.length ≤ names.length then some (names.zip items) else none
  | .loose, .scalar .null "" => some []
  | _, _ => none

def required (d : Decoder α) (t : Typing) (entries : Document.Entries) (name : String) : Option α :=
  (entries.lookup name).bind (d t)

def orElse (d : Decoder α) (default : α) (t : Typing) (entries : Document.Entries)
    (name : String) : Option α :=
  match entries.lookup name with
  | none => some default
  | some doc => d t doc

end Decoder
end ScopedCommands
