import ScopedCommands.Dict

/-!
Which names of the process environment a scope may read. A scope inherits the names of the scope
around it, replaces them by a list of its own, or, with an empty list, rejects every name.
-/
namespace ScopedCommands

inductive AllowlistMode
  | inherited
  | explicit
  | rejecting
deriving DecidableEq

def AllowlistMode.label : AllowlistMode → String
  | inherited => "inherit"
  | explicit => "explicit"
  | rejecting => "reject"

structure Allowlist where
  mode : AllowlistMode
  names : NameSet
deriving DecidableEq

namespace Allowlist

def resolve (declared : Option (List String)) (enclosing : Option Allowlist) : Allowlist :=
  match declared with
  | none => ⟨.inherited, (enclosing.map (·.names)).getD .empty⟩
  | some [] => ⟨.rejecting, .empty⟩
  | some names => ⟨.explicit, .ofNames names⟩

def allows (a : Allowlist) (name : String) : Bool := a.names.contains name

def toList (a : Allowlist) : List String := a.names.keys

def none : Allowlist := ⟨.inherited, .empty⟩

end Allowlist
end ScopedCommands
