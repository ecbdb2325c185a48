import Mathlib.Order.Monotone.Basic
import ScopedCommands.Time.Civil

/-!
Dates in the order of their days. A day is told by the year that begins in March and its place in
that year; later days have greater places, and greater places greater dates.
-/
namespace ScopedCommands

theorem floor_parts (n : Int) (step : Nat) (positive : 0 < step) :
    n.fdiv step * step + (n.fmod step).toNat = n ∧ (n.fmod step).toNat < step := by
  have whole := Int.fmod_add_fdiv_mul n step
  have remainder : n.fmod step = n % step := Int.fmod_eq_emod_of_nonneg n (by omega)
  have least : 0 ≤ n % step := Int.emod_nonneg n (by omega)
  have most : n % step < step := Int.emod_lt_of_pos n (by omega)
  rw [remainder] at whole ⊢
  constructor <;> omega

namespace CivilDate

/-- The days of an era less its leap days: 365 of them make a year. -/
def plainDays (day : Nat) : Nat := day - day / 1460 + day / 36524 - day / 146096

theorem plainDays_mono : Monotone plainDays := by
  refine monotone_nat_of_le_succ fun day => ?_
  have leap : (day + 1) / 1460 ≤ day / 1460 + 1 := by omega
  have century : day / 36524 ≤ (day + 1) / 36524 := by omega
  have era : day / 146096 = day / 36524 / 4 := by omega
  have era' : (day + 1) / 146096 = (day + 1) / 36524 / 4 := by omega
  have fewer : day / 1460 ≤ day := Nat.div_le_self day 1460
  rw [plainDays, plainDays, era, era']
  generalize (day + 1) / 1460 = leaps' at *
  generalize (day + 1) / 36524 = centuries' at *
  omega

section

variable {year day : Nat} (inside : year < 400)

include inside

theorem daysBeforeYear_div :
    daysBeforeYear year / 1460 = year / 4 ∧ daysBeforeYear year / 36524 = year / 100 ∧
      daysBeforeYear year / 146096 = 0 := by
  unfold daysBeforeYear
  refine ⟨?_, ?_, ?_⟩ <;> omega

theorem plainDays_daysBeforeYear : plainDays (daysBeforeYear year) = 365 * year := by
  obtain ⟨leaps, centuries, eras⟩ := daysBeforeYear_div inside
  rw [plainDays, leaps, centuries, eras, daysBeforeYear]
  omega

/-- No leap day stands at the beginning of a year. -/
theorem plainDays_lt_of_next (next : day + 1 = daysBeforeYear year) :
    plainDays day < plainDays (day + 1) := by
  obtain ⟨leaps, centuries, eras⟩ := daysBeforeYear_div inside
  rw [← next] at leaps centuries eras
  have same : day / 1460 = (day + 1) / 1460 := by
    unfold daysBeforeYear at next
    omega
  have century : day / 36524 ≤ (day + 1) / 36524 := by omega
  have era : day / 146096 = 0 := by omega
  rw [plainDays, plainDays, same, era, eras]
  omega

theorem le_yearOfEra_iff : year ≤ yearOfEra day ↔ daysBeforeYear year ≤ day := by
  have quotient : yearOfEra day = plainDays day / 365 := rfl
  rw [quotient, Nat.le_div_iff_mul_le (by decide), Nat.mul_comm,
    ← plainDays_daysBeforeYear inside]
  constructor
  · intro reached
    by_contra before
    obtain ⟨last, next⟩ : ∃ last, last + 1 = daysBeforeYear year :=
      ⟨daysBeforeYear year - 1, by omega⟩
    have less := plainDays_lt_of_next inside next
    have most := plainDays_mono (show day ≤ last by omega)
    rw [next] at less
    omega
  · intro begun
    exact plainDays_mono begun

end

theorem yearOfEra_lt {day : Nat} (inside : day < daysPerEra) : yearOfEra day < 400 := by
  unfold yearOfEra
  unfold daysPerEra at inside
  omega

structure MarchDay where
  year : Int
  place : Nat

namespace MarchDay

def ofDays (days : Int) : MarchDay :=
  let shifted := days + epochOffset
  let day := (shifted.fmod daysPerEra).toNat
  let year := yearOfEra day
  ⟨shifted.fdiv daysPerEra * 400 + year, day - daysBeforeYear year⟩

def date (d : MarchDay) : CivilDate :=
  let fromMarch := (5 * d.place + 2) / 153
  let month := if fromMarch < 10 then fromMarch + 3 else fromMarch - 9
  { year := d.year + (if month ≤ 2 then 1 else 0)
    month
    day := d.place - (153 * fromMarch + 2) / 5 + 1 }

theorem date_ofDays (days : Int) : (ofDays days).date = CivilDate.ofDays days := rfl

def daysBefore (year : Int) : Int := 365 * year + year / 4 - year / 100 + year / 400

theorem daysBefore_le {year year' : Int} (later : year ≤ year') :
    daysBefore year ≤ daysBefore year' := by
  unfold daysBefore
  omega

theorem daysBefore_of_era (era : Int) {year : Nat} (inside : year < 400) :
    daysBefore (era * 400 + year) = era * daysPerEra + daysBeforeYear year := by
  unfold daysBefore daysBeforeYear daysPerEra
  omega

theorem daysBefore_next_era (era : Int) :
    daysBefore ((era + 1) * 400) = era * daysPerEra + daysPerEra := by
  unfold daysBefore daysPerEra
  omega

variable (days : Int)

theorem daysBefore_add_place :
    daysBefore (ofDays days).year + (ofDays days).place = days + epochOffset := by
  obtain ⟨whole, inside⟩ := floor_parts (days + epochOffset) daysPerEra (by decide)
  simp only [ofDays]
  generalize ((days + epochOffset).fmod daysPerEra).toNat = day at *
  have early := yearOfEra_lt inside
  have begun : daysBeforeYear (yearOfEra day) ≤ day := (le_yearOfEra_iff early).1 le_rfl
  rw [daysBefore_of_era _ early]
  omega

theorem lt_daysBefore_next : days + epochOffset < daysBefore ((ofDays days).year + 1) := by
  obtain ⟨whole, inside⟩ := floor_parts (days + epochOffset) daysPerEra (by decide)
  simp only [ofDays]
  generalize ((days + epochOffset).fmod daysPerEra).toNat = day at *
  generalize (days + epochOffset).fdiv daysPerEra = era at *
  by_cases last : yearOfEra day + 1 < 400
  · have beyond : day < daysBeforeYear (yearOfEra day + 1) := by
      rw [← Nat.not_le, ← le_yearOfEra_iff last]
      omega
    have year : era * 400 + (yearOfEra day : Int) + 1 = era * 400 + (yearOfEra day + 1 : Nat) := by
      omega
    rw [year, daysBefore_of_era era last]
    omega
  · have year : era * 400 + (yearOfEra day : Int) + 1 = (era + 1) * 400 := by
      have early := yearOfEra_lt inside
      omega
    rw [year, daysBefore_next_era]
    omega

theorem place_le : (ofDays days).place ≤ 365 := by
  have place := daysBefore_add_place days
  have next := lt_daysBefore_next days
  generalize (ofDays days).year = year at *
  unfold daysBefore at place next
  omega

variable {days}

theorem ofDays_lt {later : Int} (h : days < later) :
    (ofDays days).year < (ofDays later).year ∨
      (ofDays days).year = (ofDays later).year ∧ (ofDays days).place < (ofDays later).place := by
  have place := daysBefore_add_place days
  have place' := daysBefore_add_place later
  have next := lt_daysBefore_next later
  rcases lt_trichotomy (ofDays days).year (ofDays later).year with before | same | after
  · exact .inl before
  · rw [same] at place
    exact .inr ⟨same, by omega⟩
  · have years := daysBefore_le (Int.add_one_le_of_lt after)
    omega

end MarchDay

def number (c : CivilDate) : Int := c.year * 10000 + c.month * 100 + c.day

/-- Five months have 153 days, and none has more than 31. -/
theorem monthStart_bounds (place : Nat) :
    (153 * ((5 * place + 2) / 153) + 2) / 5 ≤ place ∧
      place ≤ (153 * ((5 * place + 2) / 153) + 2) / 5 + 30 := by
  omega

theorem month_day_le (days : Int) : (ofDays days).month ≤ 12 ∧ (ofDays days).day ≤ 31 := by
  have inside := MarchDay.place_le days
  rw [← MarchDay.date_ofDays]
  simp only [MarchDay.date]
  generalize (MarchDay.ofDays days).place = place at *
  have day := monthStart_bounds place
  split <;> omega

/-- Month and day as a number, the months after December counted on from it. -/
def monthNumber (place : Nat) : Nat :=
  let fromMarch := (5 * place + 2) / 153
  (if fromMarch < 10 then fromMarch + 3 else fromMarch + 91) * 100 +
    (place - (153 * fromMarch + 2) / 5 + 1)

section

variable {place later : Nat} (inside : place ≤ 365)

include inside

theorem number_date (year : Int) :
    (MarchDay.date ⟨year, place⟩).number = year * 10000 + monthNumber place := by
  have months : (5 * place + 2) / 153 ≤ 11 := by omega
  simp only [number, MarchDay.date, monthNumber]
  generalize (5 * place + 2) / 153 = fromMarch at *
  by_cases early : fromMarch < 10
  · have late : ¬ fromMarch + 3 ≤ 2 := by omega
    simp only [early, late, if_true, if_false]
    omega
  · have begun : fromMarch - 9 ≤ 2 := by omega
    simp only [early, begun, if_true, if_false]
    omega

theorem monthNumber_bounds : 301 ≤ monthNumber place ∧ monthNumber place ≤ 10231 := by
  have months : (5 * place + 2) / 153 ≤ 11 := by omega
  have day := monthStart_bounds place
  simp only [monthNumber]
  split <;> omega

omit inside in
theorem monthNumber_lt (h : place < later) : monthNumber place < monthNumber later := by
  have months : (5 * place + 2) / 153 ≤ (5 * later + 2) / 153 := by omega
  have day := monthStart_bounds place
  have day' := monthStart_bounds later
  simp only [monthNumber]
  generalize (5 * place + 2) / 153 = month at *
  generalize (5 * later + 2) / 153 = month' at *
  rcases Nat.lt_or_eq_of_le months with before | rfl
  · split <;> split <;> omega
  · omega

end

theorem number_ofDays_lt {days later : Int} (h : days < later) :
    (ofDays days).number < (ofDays later).number := by
  have order := MarchDay.ofDays_lt h
  have inside := MarchDay.place_le days
  have inside' := MarchDay.place_le later
  rw [← MarchDay.date_ofDays, ← MarchDay.date_ofDays, number_date inside, number_date inside']
  rcases order with before | ⟨same, earlier⟩
  · have most := (monthNumber_bounds inside).2
    have least := (monthNumber_bounds inside').1
    omega
  · have less := monthNumber_lt earlier
    omega

end CivilDate
end ScopedCommands
