import ScopedCommands.Document.Basic

/-!
What a plain scalar stands for: nothing, a truth value, a number, or its own text. Digits after a
leading zero are text, and so is a decimal too large for a double.
-/
namespace ScopedCommands.Yaml

def isNullWord (cs : List Char) : Bool :=
  ["", "~", "null", "Null", "NULL"].any (·.toList = cs)

def isBooleanWord (cs : List Char) : Bool :=
  ["true", "True", "TRUE", "false", "False", "FALSE"].any (·.toList = cs)

def isInfinityOrNan (cs : List Char) : Bool :=
  [".inf", ".Inf", ".INF", "+.inf", "+.Inf", "+.INF", "-.inf", "-.Inf", "-.INF",
    ".nan", ".NaN", ".NAN"].any (·.toList = cs)

def digitValue (c : Char) : Option Nat :=
  if c.isDigit then some (c.toNat - '0'.toNat)
  else if 'a' ≤ c ∧ c ≤ 'z' then some (c.toNat - 'a'.toNat + 10)
  else if 'A' ≤ c ∧ c ≤ 'Z' then some (c.toNat - 'A'.toNat + 10)
  else none

def inBase (base : Nat) (cs : List Char) : Option Nat :=
  if cs = [] then none
  else cs.foldlM (fun n c => (digitValue c).bind fun d =>
    if d < base then some (n * base + d) else none) 0

def unsigned : List Char → List Char
  | '+' :: cs => cs
  | '-' :: cs => cs
  | cs => cs

/-- Hexadecimal, octal and binary integers of at most 128 bits, the sign among them. -/
def isBasedInteger (cs : List Char) : Bool :=
  let limit := if cs.head? = some '-' then Nat.pow 2 127 + 1 else Nat.pow 2 128
  let small := fun base digits => match inBase base digits with
    | some n => n < limit
    | none => false
  match unsigned cs with
  | '0' :: 'x' :: digits => small 16 digits
  | '0' :: 'o' :: digits => small 8 digits
  | '0' :: 'b' :: digits => small 2 digits
  | _ => false

def exponent (cs : List Char) : Option Int :=
  match cs with
  | '-' :: digits => (inBase 10 digits).map fun n => -(n : Int)
  | '+' :: digits => (inBase 10 digits).map fun n => (n : Int)
  | digits => (inBase 10 digits).map fun n => (n : Int)

/-- Half a unit above the largest double. -/
def doubleBound : Nat := Nat.pow 2 1024 - Nat.pow 2 970

def fitsDouble (mantissa : List Char) (power : Int) : Bool :=
  let digits := mantissa.dropWhile (· = '0')
  let value := (inBase 10 digits).getD 0
  if value = 0 then true
  else if (digits.length : Int) + power > 309 then false
  else if power < 0 then value < doubleBound * Nat.pow 10 power.natAbs
  else value * Nat.pow 10 power.toNat < doubleBound

def isDecimal (cs : List Char) : Bool :=
  let whole := cs.takeWhile Char.isDigit
  let rest := cs.dropWhile Char.isDigit
  let (fraction, rest) := match rest with
    | '.' :: after => (after.takeWhile Char.isDigit, after.dropWhile Char.isDigit)
    | _ => ([], rest)
  if whole = [] ∧ fraction = [] then false
  else
    let power := match rest with
      | [] => some 0
      | 'e' :: after => exponent after
      | 'E' :: after => exponent after
      | _ => none
    match power with
    | none => false
    | some p => fitsDouble (whole ++ fraction) (p - fraction.length)

def isPaddedDigits (cs : List Char) : Bool :=
  match unsigned cs with
  | '0' :: d :: rest => (d :: rest).all Char.isDigit
  | _ => false

def isNumber (cs : List Char) : Bool :=
  isInfinityOrNan cs || isBasedInteger cs || (!isPaddedDigits cs && isDecimal (unsigned cs))

def plainKind (cs : List Char) : ScalarKind :=
  if isNullWord cs then .null
  else if isBooleanWord cs then .boolean
  else if isNumber cs then .number
  else .text

def plainScalar (cs : List Char) : Document := .scalar (plainKind cs) (String.ofList cs)

end ScopedCommands.Yaml
