import ScopedCommands.Dict
import ScopedCommands.Time.Civil

/-!
Instants in UTC, and the automatic variables that a run provides. A leap second is told by
nanoseconds from a whole second up, on the last second of a minute.
-/
namespace ScopedCommands

structure Instant where
  seconds : Int := 0
  nanos : Nat := 0
deriving DecidableEq

namespace Instant

def secondsPerDay : Nat := 86400

def date (t : Instant) : CivilDate := .ofDays (t.seconds.fdiv secondsPerDay)

def secondOfDay (t : Instant) : Nat := (t.seconds.fmod secondsPerDay).toNat

def leap (t : Instant) : Bool := 1000000000 ≤ t.nanos

def supported (t : Instant) : Bool :=
  t.date.year ≤ 262142 && -262143 ≤ t.date.year
    && t.nanos < 2000000000
    && (!t.leap || t.secondOfDay % 60 = 59)

def padded (width n : Nat) : List Char :=
  let digits := Nat.toDigits 10 n
  List.replicate (width - digits.length) '0' ++ digits

/-- Four digits, and a sign outside the years 0 to 9999. -/
def yearText (year : Int) : List Char :=
  if 0 ≤ year ∧ year ≤ 9999 then padded 4 year.toNat
  else (if year < 0 then '-' else '+') :: padded 4 year.natAbs

/-- Year to second without separators, a point, and whole milliseconds. -/
def stamp (t : Instant) : String :=
  let date := t.date
  let second := t.secondOfDay
  String.ofList (yearText date.year ++ padded 2 date.month ++ padded 2 date.day
    ++ padded 2 (second / 3600) ++ padded 2 (second / 60 % 60)
    ++ padded 2 (second % 60 + t.nanos / 1000000000)
    ++ '.' :: padded 3 (t.nanos % 1000000000 / 1000000))

end Instant

namespace Automatic

def datetimeName : String := "__runner_datetime"

def pidName : String := "__runner_pid"

def vars (now : Instant) (pid : Nat) : Dict String :=
  .ofList [(datetimeName, now.stamp), (pidName, toString pid)]

theorem get?_datetime (now : Instant) (pid : Nat) :
    (vars now pid).get? datetimeName = some now.stamp := by
  simp [vars, Dict.ofList, Dict.get?_insert, datetimeName, pidName]

theorem get?_pid (now : Instant) (pid : Nat) :
    (vars now pid).get? pidName = some (toString pid) := by
  simp [vars, Dict.ofList, Dict.get?_insert]

end Automatic
end ScopedCommands
