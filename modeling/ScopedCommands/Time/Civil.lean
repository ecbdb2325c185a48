/-!
Dates of the Gregorian calendar, extended to all years, from the count of days since the first of
January 1970. Years are counted from March, so that a leap day ends its year; four hundred of them
make an era of 146097 days.
-/
namespace ScopedCommands

structure CivilDate where
  year : Int
  month : Nat
  day : Nat
deriving DecidableEq

namespace CivilDate

def daysPerEra : Nat := 146097

def epochOffset : Int := 719468

def yearOfEra (day : Nat) : Nat := (day - day / 1460 + day / 36524 - day / 146096) / 365

def daysBeforeYear (year : Nat) : Nat := 365 * year + year / 4 - year / 100

def ofDays (days : Int) : CivilDate :=
  let shifted := days + epochOffset
  let era := shifted.fdiv daysPerEra
  let dayOfEra := (shifted.fmod daysPerEra).toNat
  let yearOfEra := yearOfEra dayOfEra
  let dayOfYear := dayOfEra - daysBeforeYear yearOfEra
  let fromMarch := (5 * dayOfYear + 2) / 153
  let month := if fromMarch < 10 then fromMarch + 3 else fromMarch - 9
  { year := era * 400 + yearOfEra + (if month ≤ 2 then 1 else 0)
    month
    day := dayOfYear - (153 * fromMarch + 2) / 5 + 1 }

def isLeap (year : Nat) : Bool := year % 4 = 0 && (year % 100 ≠ 0 || year % 400 = 0)

def monthLength (year month : Nat) : Nat :=
  if month = 2 then (if isLeap year then 29 else 28)
  else if month = 4 ∨ month = 6 ∨ month = 9 ∨ month = 11 then 30
  else 31

end CivilDate
end ScopedCommands
