import ScopedCommands.Dict

namespace ScopedCommands

structure Chain where
  order : List String := []
  members : NameSet := .empty
deriving DecidableEq

namespace Chain

def empty : Chain := {}

def contains (c : Chain) (name : String) : Bool := c.members.contains name

/-- Nothing happens to a chain that has the name already. -/
def push (c : Chain) (name : String) : Bool × Chain :=
  if c.contains name then (false, c)
  else (true, ⟨c.order ++ [name], c.members.add name⟩)

def top (c : Chain) : Option String := c.order.getLast?

def pop (c : Chain) : Option String × Chain :=
  match c.top with
  | none => (none, c)
  | some name => (some name, ⟨c.order.dropLast, c.members.erase name⟩)

/-- The path from the outermost name back to a name that it already passed. -/
def cycle (c : Chain) (name : String) : List String := c.order ++ [name]

def length (c : Chain) : Nat := c.order.length

end Chain
end ScopedCommands
