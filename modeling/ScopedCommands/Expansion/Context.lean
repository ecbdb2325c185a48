import ScopedCommands.Allowlist
import ScopedCommands.Expansion.Chain
import ScopedCommands.Reference

namespace ScopedCommands

inductive ExpansionError
  | malformed (cause : ReferenceError)
  | undefined (name : String)
  | circular (chain : List String)
  | tooDeep (name : String) (limit : Nat)
  | notAllowed (scope user external : String)
deriving DecidableEq

def ExpansionError.message : ExpansionError → String
  | .malformed cause => cause.message
  | .undefined name => s!"Undefined variable: {name}"
  | .circular chain => "Circular reference: " ++ " -> ".intercalate chain
  | .tooDeep name limit => s!"Maximum recursion depth {limit} exceeded while expanding {name}"
  | .notAllowed scope user external =>
    s!"{scope}: {user} references {external}, which is not in the env allowlist"

structure External where
  values : Dict String
  allowlist : Allowlist
deriving DecidableEq

structure Context where
  scope : String
  field : String := ""
  external : Option External := none
  chain : Chain := .empty
  depth : Nat := 0
deriving DecidableEq

namespace Context

def depthLimit : Nat := 100

def enter (ctx : Context) (name : String) : Except ExpansionError Context :=
  if ctx.chain.contains name then .error (.circular (ctx.chain.cycle name))
  else if depthLimit ≤ ctx.depth then .error (.tooDeep name depthLimit)
  else .ok { ctx with chain := (ctx.chain.push name).2, depth := ctx.depth + 1 }

def leave (ctx : Context) : Context :=
  match ctx.chain.pop with
  | (none, _) => ctx
  | (some _, chain) => { ctx with chain, depth := ctx.depth - 1 }

/-- The variable or field in whose text the expansion stands. -/
def user (ctx : Context) : String := ctx.chain.top.getD ctx.field

end Context
end ScopedCommands
