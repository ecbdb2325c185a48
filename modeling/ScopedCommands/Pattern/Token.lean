import ScopedCommands.Pattern.Basic

/-!
Written patterns as tokens. An atom matches one character or a position, a quantifier applies to
what stands before it. A backslash makes an ASCII character that is neither a letter nor a digit
stand for itself. Classes may be nested; their only operation is union. What is not read (borders of
words, flags, names of groups, code points, Unicode classes) is refused.
-/
namespace ScopedCommands.Pattern

inductive Token
  | atom (p : Pattern)
  | opening
  | closing
  | bar
  | quantifier (least : Nat) (most : Option Nat)

namespace Token

def escapedControl : Char → Option Char
  | 't' => some '\t'
  | 'n' => some '\n'
  | 'r' => some '\r'
  | 'a' => some '\x07'
  | 'f' => some '\x0c'
  | 'v' => some '\x0b'
  | _ => none

/-- Angle brackets would stand for borders of words. -/
def escapesItself (c : Char) : Bool :=
  c.toNat < 0x80 && !c.isAlphanum && c != '<' && c != '>'

def escapedChar (c : Char) : Option Char :=
  (escapedControl c).or (if escapesItself c then some c else none)

def escapedSet (c : Char) : Option CharSet :=
  if c = 's' then some .blank
  else if c = 'S' then some (.complement .blank)
  else none

def classItem : List Char → Option ((CharSet ⊕ Char) × List Char)
  | [] => none
  | '\\' :: c :: rest =>
    match escapedSet c with
    | some set => some (.inl set, rest)
    | none => (escapedChar c).map fun d => (.inr d, rest)
  | '\\' :: [] => none
  | c :: rest => some (.inr c, rest)

def unite (set : Option CharSet) (more : CharSet) : Option CharSet :=
  some (match set with
    | none => more
    | some s => .union s more)

/-- What stands first in a class: the mark of a complement, hyphens, or a closing bracket that
counts as a member. -/
def classHead (cs : List Char) : Bool × Option CharSet × List Char :=
  let (negated, cs) := match cs with
    | '^' :: rest => (true, rest)
    | _ => (false, cs)
  match cs with
  | '-' :: _ => (negated, some (.single '-'), cs.dropWhile (· = '-'))
  | ']' :: rest => (negated, some (.single ']'), rest)
  | _ => (negated, none, cs)

def complementIf (negated : Bool) (set : CharSet) : CharSet :=
  if negated then .complement set else set

def asciiRanges : String → List (Char × Char)
  | "alnum" => [('0', '9'), ('A', 'Z'), ('a', 'z')]
  | "alpha" => [('A', 'Z'), ('a', 'z')]
  | "ascii" => [('\x00', '\x7f')]
  | "blank" => [('\t', '\t'), (' ', ' ')]
  | "cntrl" => [('\x00', '\x1f'), ('\x7f', '\x7f')]
  | "digit" => [('0', '9')]
  | "graph" => [('!', '~')]
  | "lower" => [('a', 'z')]
  | "print" => [(' ', '~')]
  | "punct" => [('!', '/'), (':', '@'), ('[', '\x60'), ('\x7b', '~')]
  | "space" => [('\t', '\r'), (' ', ' ')]
  | "upper" => [('A', 'Z')]
  | "word" => [('0', '9'), ('A', 'Z'), ('_', '_'), ('a', 'z')]
  | "xdigit" => [('0', '9'), ('A', 'F'), ('a', 'f')]
  | _ => []

/-- An ASCII class after its opening bracket: a name between colons. Without a known name the
bracket opens an ordinary class. -/
def asciiClass : List Char → Option (CharSet × List Char)
  | ':' :: cs =>
    let negated := cs.head? = some '^'
    let cs := if negated then cs.drop 1 else cs
    match asciiRanges (String.ofList (cs.takeWhile (· ≠ ':'))), cs.dropWhile (· ≠ ':') with
    | first :: more, ':' :: ']' :: rest =>
      let set := more.foldl (fun set r => .union set (.range r.1 r.2)) (.range first.1 first.2)
      some (complementIf negated set, rest)
    | _, _ => none
  | _ => none

def classRest : Nat → Option CharSet → List Char → Option (CharSet × List Char)
  | 0, _, _ => none
  | _, _, [] => none
  | fuel + 1, set, c :: rest =>
    if c = ']' then set.map (·, rest)
    else if c = '[' then
      match asciiClass rest with
      | some (named, rest) => classRest fuel (unite set named) rest
      | none =>
        let (negated, first, rest) := classHead rest
        match classRest fuel first rest with
        | none => none
        | some (inner, rest) => classRest fuel (unite set (complementIf negated inner)) rest
    else if (c = '&' ∨ c = '-' ∨ c = '~') ∧ rest.head? = some c then none
    else match classItem (c :: rest) with
      | none => none
      | some (first, rest) =>
        let alone := unite set (first.elim id .single)
        match rest with
        | '-' :: d :: tail =>
          if d = ']' ∨ d = '-' then classRest fuel alone rest
          else match first, classItem (d :: tail) with
            | .inr low, some (.inr high, rest) =>
              if low ≤ high then classRest fuel (unite set (.range low high)) rest else none
            | _, _ => none
        | _ => classRest fuel alone rest

def digits (cs : List Char) : Option (Nat × List Char) :=
  match cs.takeWhile Char.isDigit with
  | [] => none
  | ds => some (Nat.ofDigitChars 10 ds 0, cs.dropWhile Char.isDigit)

def counts (cs : List Char) : Option ((Nat × Option Nat) × List Char) :=
  match digits cs with
  | none => none
  | some (n, '}' :: rest) => some ((n, some n), rest)
  | some (n, ',' :: '}' :: rest) => some ((n, none), rest)
  | some (n, ',' :: rest) =>
    match digits rest with
    | some (m, '}' :: rest) => if n ≤ m then some ((n, some m), rest) else none
    | _ => none
  | some _ => none

/-- Preferring few repetitions changes what is matched, not whether there is a match. -/
def skipLazy : List Char → List Char
  | '?' :: rest => rest
  | cs => cs

def next (cs : List Char) : Option (Token × List Char) :=
  match cs with
  | [] => none
  | '\\' :: [] => none
  | '\\' :: 'A' :: rest => some (.atom .start, rest)
  | '\\' :: 'z' :: rest => some (.atom .finish, rest)
  | '\\' :: c :: rest =>
    match escapedSet c with
    | some set => some (.atom (.one set), rest)
    | none => (escapedChar c).map fun d => (.atom (.one (.single d)), rest)
  | '(' :: '?' :: ':' :: rest => some (.opening, rest)
  | '(' :: '?' :: _ => none
  | '(' :: rest => some (.opening, rest)
  | ')' :: rest => some (.closing, rest)
  | '|' :: rest => some (.bar, rest)
  | '*' :: rest => some (.quantifier 0 none, skipLazy rest)
  | '+' :: rest => some (.quantifier 1 none, skipLazy rest)
  | '?' :: rest => some (.quantifier 0 (some 1), skipLazy rest)
  | '{' :: rest =>
    (counts rest).map fun r => (.quantifier r.1.1 r.1.2, skipLazy r.2)
  | '[' :: rest =>
    let (negated, first, tail) := classHead rest
    (classRest rest.length first tail).map fun r =>
      (.atom (.one (complementIf negated r.1)), r.2)
  | '.' :: rest => some (.atom (.one .dot), rest)
  | '^' :: rest => some (.atom .start, rest)
  | '$' :: rest => some (.atom .finish, rest)
  | c :: rest => some (.atom (.one (.single c)), rest)

def scan : Nat → List Char → Option (List Token)
  | _, [] => some []
  | 0, _ => none
  | fuel + 1, cs =>
    match next cs with
    | none => none
    | some (token, rest) => (scan fuel rest).map (token :: ·)

end Token
end ScopedCommands.Pattern
