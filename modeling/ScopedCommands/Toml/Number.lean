import ScopedCommands.Time.Civil
import ScopedCommands.Toml.Text

namespace ScopedCommands.Toml

/-- The digits of a number whose underscores stand between digits. -/
def ungrouped (isDigit : Char → Bool) : List Char → Option (List Char)
  | [] => none
  | [c] => if isDigit c then some [c] else none
  | c :: '_' :: d :: rest =>
    if isDigit c ∧ isDigit d then (ungrouped isDigit (d :: rest)).map (c :: ·) else none
  | c :: rest => if isDigit c then (ungrouped isDigit rest).map (c :: ·) else none

def dropSign : List Char → List Char
  | '+' :: cs => cs
  | '-' :: cs => cs
  | cs => cs

def hasNoPadding : List Char → Bool
  | '0' :: _ :: _ => false
  | _ => true

def isDecimalInteger (cs : List Char) : Bool :=
  match ungrouped Char.isDigit (dropSign cs) with
  | none => false
  | some digits =>
    let value := Nat.ofDigitChars 10 digits 0
    hasNoPadding digits
      && (if cs.head? = some '-' then value ≤ Nat.pow 2 63 else value < Nat.pow 2 63)

/-- Digits of a base that is a power of two, which have no sign. -/
def isBaseInteger (base : Nat) (cs : List Char) : Bool :=
  let isDigit := fun c => (hexValue c).any (· < base)
  (ungrouped isDigit cs).any fun digits =>
    digits.foldl (fun n c => n * base + (hexValue c).getD 0) 0 < Nat.pow 2 63

def isInteger (cs : List Char) : Bool :=
  match cs with
  | '0' :: 'x' :: rest => isBaseInteger 16 rest
  | '0' :: 'o' :: rest => isBaseInteger 8 rest
  | '0' :: 'b' :: rest => isBaseInteger 2 rest
  | _ => isDecimalInteger cs

def isFloat (cs : List Char) : Bool :=
  let body := dropSign cs
  if body = ['i', 'n', 'f'] ∨ body = ['n', 'a', 'n'] then true
  else
    let isDigitOrJoin := fun c : Char => c.isDigit || c = '_'
    let whole := body.takeWhile isDigitOrJoin
    let rest := body.dropWhile isDigitOrJoin
    let (fraction, rest) := match rest with
      | '.' :: after => (some (after.takeWhile isDigitOrJoin), after.dropWhile isDigitOrJoin)
      | _ => (none, rest)
    let power := match rest with
      | 'e' :: after => some (dropSign after)
      | 'E' :: after => some (dropSign after)
      | _ => none
    let grouped := fun ds => (ungrouped Char.isDigit ds).isSome
    (ungrouped Char.isDigit whole).any hasNoPadding
      && fraction.all grouped && power.all grouped
      && (power.isSome || (fraction.isSome && rest = []))

/-- Whether the text has the form of the pattern, in which a zero stands for any digit. -/
def digitsOf (pattern : List Char) (cs : List Char) : Bool :=
  pattern.length = cs.length &&
    (pattern.zip cs).all fun p => if p.1 = '0' then p.2.isDigit else p.1 = p.2

def numberAt (start length : Nat) (cs : List Char) : Nat :=
  Nat.ofDigitChars 10 ((cs.drop start).take length) 0

def isHour (cs : List Char) : Bool := numberAt 0 2 cs < 24

def isMinute (cs : List Char) : Bool := numberAt 0 2 cs < 60

def isOffset (cs : List Char) : Bool :=
  cs = [] || cs = ['Z'] || cs = ['z']
    || ((digitsOf "+00:00".toList cs || digitsOf "-00:00".toList cs)
      && isHour (cs.drop 1) && isMinute (cs.drop 4))

def isTime (offset : Bool) (cs : List Char) : Bool :=
  digitsOf "00:00:00".toList (cs.take 8)
    && isHour cs && isMinute (cs.drop 3) && numberAt 6 2 cs ≤ 60 &&
    let rest := cs.drop 8
    let tail := match rest with
      | '.' :: d :: more => if d.isDigit then more.dropWhile Char.isDigit else rest
      | _ => rest
    if offset then isOffset tail else tail = []

def isDate (cs : List Char) : Bool :=
  let month := numberAt 5 2 cs
  let day := numberAt 8 2 cs
  digitsOf "0000-00-00".toList cs && 1 ≤ month && month ≤ 12 && 1 ≤ day
    && day ≤ CivilDate.monthLength (numberAt 0 4 cs) month

def isDateTime (cs : List Char) : Bool :=
  isDate cs || isTime false cs ||
    (isDate (cs.take 10) && ['T', 't', ' '].contains ((cs.drop 10).headD 'x')
      && isTime true (cs.drop 11))

def isNumber (cs : List Char) : Bool := isInteger cs || isFloat cs || isDateTime cs

end ScopedCommands.Toml
