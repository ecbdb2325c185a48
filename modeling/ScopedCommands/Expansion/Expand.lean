import ScopedCommands.Expansion.Context

/-!
Expansion of the references in a raw text. A name bound to raw text is expanded in turn, a resolved
value is taken as it is, and a name without binding is looked for in the process environment.

The context goes through every step and comes back, with an error as well as with a value. Each
name that is entered takes one from the depth that is left, which bounds the recursion.
-/
namespace ScopedCommands

inductive Binding
  | raw (text : String)
  | resolved (value : String)
deriving DecidableEq

abbrev Lookup := String → Option Binding

def Lookup.ofRaw (texts : Dict String) : Lookup := fun name => (texts.get? name).map .raw

namespace Expansion

abbrev Run := Context → Except ExpansionError String × Context

/-- A name without binding: the environment where the allowlist admits it, else an error that says
why there is no value. -/
def unbound (name : String) (ctx : Context) : Except ExpansionError String :=
  let absent : Except ExpansionError String :=
    if ctx.chain.contains name then .error (.circular (ctx.chain.cycle name))
    else match ctx.external with
      | none => .error (.undefined name)
      | some env =>
        if env.values.contains name then .error (.notAllowed ctx.scope ctx.user name)
        else .error (.undefined name)
  match ctx.external with
  | none => absent
  | some env => if env.allowlist.allows name then .ok ((env.values.get? name).getD "") else absent

def reference (nested : String → Run) (lookup : Lookup) (name : String) : Run := fun ctx =>
  match lookup name with
  | some (.resolved value) => (.ok value, ctx)
  | some (.raw text) =>
    match ctx.enter name with
    | .error e => (.error e, ctx)
    | .ok inner =>
      let result := nested text inner
      (result.1, result.2.leave)
  | none => (unbound name ctx, ctx)

def concat (value : String → Run) : List Segment → Run
  | [], ctx => (.ok "", ctx)
  | .literal text :: rest, ctx =>
    let tail := concat value rest ctx
    (tail.1.map (text ++ ·), tail.2)
  | .reference name _ :: rest, ctx =>
    match value name ctx with
    | (.error e, after) => (.error e, after)
    | (.ok v, after) =>
      let tail := concat value rest after
      (tail.1.map (v ++ ·), tail.2)

/-- Expansion with room for `room` names more on the chain. Where no room is left, entering a name
fails before its text is looked at. -/
def within (room : Nat) (lookup : Lookup) (raw : String) : Run := fun ctx =>
  match Reference.parse raw with
  | .error e => (.error (.malformed e), ctx)
  | .ok segments =>
    concat (reference (match room with
      | 0 => fun _ inner => (.ok "", inner)
      | less + 1 => within less lookup) lookup) segments ctx

end Expansion

/-- All of a text is read before any of its references is followed. -/
def expand (lookup : Lookup) (raw : String) : Expansion.Run := fun ctx =>
  Expansion.within (Context.depthLimit - ctx.depth) lookup raw ctx

def expandIn (ctx : Context) (lookup : Lookup) (raw : String) : Except ExpansionError String :=
  (expand lookup raw ctx).1

end ScopedCommands
