import ScopedCommands.Text.Basic

/-!
Patterns over texts, and where in a text they end. A cursor is what is left of a text; `start`
matches only while nothing has been read.
-/
namespace ScopedCommands

inductive CharSet
  | range (low high : Char)
  | blank
  | union (a b : CharSet)
  | complement (a : CharSet)
deriving DecidableEq

namespace CharSet

def has : CharSet → Char → Bool
  | range low high, c => low ≤ c && c ≤ high
  | blank, c => Text.isBlank c
  | union a b, c => a.has c || b.has c
  | complement a, c => !a.has c

def single (c : Char) : CharSet := .range c c

def dot : CharSet := .complement (single '\n')

end CharSet

inductive Pattern
  | empty
  | one (set : CharSet)
  | start
  | finish
  | seq (a b : Pattern)
  | either (a b : Pattern)
  | times (p : Pattern) (count : Nat)
  | star (p : Pattern)
deriving DecidableEq

namespace Pattern

structure Cursor where
  fresh : Bool
  rest : List Char
deriving DecidableEq

/-- All that can be reached by steps, in as many rounds as there are characters left. -/
def closure (step : Cursor → List Cursor) : Nat → List Cursor → List Cursor → List Cursor
  | 0, reached, _ => reached
  | _, reached, [] => reached
  | rounds + 1, reached, frontier =>
    let next := ((frontier.flatMap step).filter fun c => !reached.contains c).eraseDups
    closure step rounds (reached ++ next) next

def iterate (step : Cursor → List Cursor) : Nat → List Cursor → List Cursor
  | 0, reached => reached
  | count + 1, reached => iterate step count (reached.flatMap step).eraseDups

def ends : Pattern → Cursor → List Cursor
  | empty, c => [c]
  | one set, c =>
    match c.rest with
    | [] => []
    | x :: rest => if set.has x then [⟨false, rest⟩] else []
  | start, c => if c.fresh then [c] else []
  | finish, c => if c.rest = [] then [c] else []
  | seq a b, c => (a.ends c).flatMap b.ends
  | either a b, c => a.ends c ++ b.ends c
  | times p count, c => iterate p.ends count [c]
  | star p, c => closure p.ends c.rest.length [c] [c]

def matchesAt (p : Pattern) (c : Cursor) : Bool := !(p.ends c).isEmpty

def matchesLater (p : Pattern) : List Char → Bool
  | [] => p.matchesAt ⟨false, []⟩
  | c :: rest => p.matchesAt ⟨false, c :: rest⟩ || p.matchesLater rest

def occurs (p : Pattern) (text : String) : Bool :=
  p.matchesAt ⟨true, text.toList⟩ ||
    match text.toList with
    | [] => false
    | _ :: rest => p.matchesLater rest

end Pattern
end ScopedCommands
