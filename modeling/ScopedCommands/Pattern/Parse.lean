import ScopedCommands.Pattern.Token

/-!
Patterns from their written form. The tokens are read left to right over a stack of open groups;
a group holds its finished alternatives and the items of the one that is being read.
-/
namespace ScopedCommands.Pattern

structure Group where
  alternatives : List Pattern := []
  /-- Latest first. -/
  items : List Pattern := []

namespace Group

def sequence (items : List Pattern) : Pattern :=
  match items with
  | [] => .empty
  | last :: earlier => earlier.foldl (fun p item => .seq item p) last

def nextAlternative (g : Group) : Group :=
  ⟨g.alternatives ++ [sequence g.items], []⟩

def close (g : Group) : Pattern :=
  match g.alternatives with
  | [] => sequence g.items
  | first :: rest => (rest ++ [sequence g.items]).foldl .either first

def push (g : Group) (p : Pattern) : Group := { g with items := p :: g.items }

end Group

def repeated (p : Pattern) (least : Nat) : Option Nat → Pattern
  | none => if least = 0 then .star p else .seq (.times p least) (.star p)
  | some most =>
    let extra := .times (.either .empty p) (most - least)
    if least = 0 then extra else if most = least then .times p least
    else .seq (.times p least) extra

def build (open_ : Group) (outer : List Group) : List Token → Option Pattern
  | [] => if outer = [] then some open_.close else none
  | .atom p :: rest => build (open_.push p) outer rest
  | .bar :: rest => build open_.nextAlternative outer rest
  | .opening :: rest => build {} (open_ :: outer) rest
  | .closing :: rest =>
    match outer with
    | [] => none
    | g :: outer => build (g.push open_.close) outer rest
  | .quantifier least most :: rest =>
    match open_.items with
    | [] => none
    | p :: items => build { open_ with items := repeated p least most :: items } outer rest

def parse (written : String) : Option Pattern :=
  let cs := written.toList
  (Token.scan cs.length cs).bind (build {} [])

end ScopedCommands.Pattern
