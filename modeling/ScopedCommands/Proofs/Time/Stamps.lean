import Mathlib.Algebra.Ring.Nat
import ScopedCommands.Proofs.Time.Calendar
import ScopedCommands.Time.Instant

/-!
Instants in the order of their stamps. Within the years of four digits a stamp is a row of digits of
a fixed width, so stamps are ordered as the numbers they show; and these numbers grow with the
instants, also through a leap second, which is shown as second 60.
-/
namespace ScopedCommands

namespace Text

def bytes (s : String) : List UInt8 := s.toUTF8.data.toList

theorem bytes_ofList (cs : List Char) :
    bytes (String.ofList cs) = cs.flatMap String.utf8EncodeChar := by
  simp [bytes, List.utf8Encode]

theorem bytes_ofList_of_ascii {cs : List Char} (ascii : ∀ c ∈ cs, c.toNat < 128) :
    bytes (String.ofList cs) = cs.map (·.toUInt8) := by
  rw [bytes_ofList]
  induction cs with
  | nil => rfl
  | cons c cs ih =>
    have one : c.utf8Size = 1 := by
      rw [Char.utf8Size_eq_one_iff, UInt32.le_iff_toNat_le]
      exact Nat.le_of_lt_succ (ascii c List.mem_cons_self)
    rw [List.flatMap_cons, String.utf8EncodeChar_eq_singleton one,
      ih fun d member => ascii d (List.mem_cons_of_mem c member)]
    rfl

theorem bytes_lt_of_ascii {cs cs' : List Char} (ascii : ∀ c ∈ cs, c.toNat < 128)
    (ascii' : ∀ c ∈ cs', c.toNat < 128) (less : cs < cs') :
    bytes (String.ofList cs) < bytes (String.ofList cs') := by
  rw [bytes_ofList_of_ascii ascii, bytes_ofList_of_ascii ascii']
  induction cs generalizing cs' with
  | nil =>
    cases cs' with
    | nil => exact absurd less (List.not_lt_nil [])
    | cons c' cs' => exact List.nil_lt_cons _ _
  | cons c cs ih =>
    cases cs' with
    | nil => exact absurd less (List.not_lt_nil _)
    | cons c' cs' =>
      rw [List.forall_mem_cons] at ascii ascii'
      rw [List.map_cons, List.map_cons, List.cons_lt_cons_iff]
      rcases List.cons_lt_cons_iff.1 less with first | ⟨rfl, later⟩
      · have values : c.toNat < c'.toNat := first
        have value : c.toUInt8.toNat = c.toNat % 256 := rfl
        have value' : c'.toUInt8.toNat = c'.toNat % 256 := rfl
        left
        rw [UInt8.lt_iff_toNat_lt]
        omega
      · exact .inr ⟨rfl, ih ascii.2 ascii'.2 later⟩

end Text

namespace Instant

def lastDigits : Nat → Nat → List Char
  | 0, _ => []
  | width + 1, n => lastDigits width (n / 10) ++ [Nat.digitChar (n % 10)]

@[simp] theorem length_lastDigits (width n : Nat) : (lastDigits width n).length = width := by
  induction width generalizing n with
  | zero => rfl
  | succ width ih => rw [lastDigits, List.length_append, ih, List.length_singleton]

theorem lastDigits_zero (width : Nat) : lastDigits width 0 = List.replicate width '0' := by
  induction width with
  | zero => rfl
  | succ width ih =>
    rw [lastDigits, Nat.zero_div, ih, List.replicate_succ']
    rfl

theorem padded_eq_lastDigits {width n : Nat} (wide : 0 < width) (fits : n < 10 ^ width) :
    padded width n = lastDigits width n := by
  induction width, wide using Nat.le_induction generalizing n with
  | base =>
    have small : n < 10 := fits
    simp [padded, lastDigits, Nat.toDigits_of_lt_base small, Nat.mod_eq_of_lt small]
  | succ width _ ih =>
    rw [lastDigits]
    by_cases small : n < 10
    · simp [padded, Nat.toDigits_of_lt_base small, Nat.mod_eq_of_lt small,
        Nat.div_eq_of_lt small, lastDigits_zero]
    · have fits' : n / 10 < 10 ^ width := by
        rw [Nat.pow_succ] at fits
        omega
      rw [← ih fits']
      simp [padded, Nat.toDigits_of_base_le (by decide : 1 < 10) (by omega : 10 ≤ n)]

theorem lastDigits_append {width width' n n' : Nat} (fits : n' < 10 ^ width') :
    lastDigits width n ++ lastDigits width' n' =
      lastDigits (width + width') (n * 10 ^ width' + n') := by
  induction width' generalizing n' with
  | zero =>
    have none : n' = 0 := by simpa using fits
    simp [none, lastDigits]
  | succ width' ih =>
    have fits' : n' / 10 < 10 ^ width' := by
      rw [Nat.pow_succ] at fits
      omega
    have whole : n * 10 ^ (width' + 1) = n * 10 ^ width' * 10 := by
      rw [Nat.pow_succ, Nat.mul_assoc]
    have front : (n * 10 ^ (width' + 1) + n') / 10 = n * 10 ^ width' + n' / 10 := by omega
    have last : (n * 10 ^ (width' + 1) + n') % 10 = n' % 10 := by omega
    rw [← Nat.add_assoc, lastDigits, lastDigits, ← List.append_assoc, ih fits', front, last]

theorem digitChar_lt {d d' : Nat} (less : d < d') (digit : d' < 10) :
    Nat.digitChar d < Nat.digitChar d' := by
  have value := Nat.toNat_digitChar_of_lt_ten (Nat.lt_trans less digit)
  have value' := Nat.toNat_digitChar_of_lt_ten digit
  rw [Char.lt_def, UInt32.lt_iff_toNat_lt]
  change (Nat.digitChar d).toNat < (Nat.digitChar d').toNat
  omega

theorem append_lt_append {a a' : List Char} (same : a.length = a'.length) (less : a < a')
    (b b' : List Char) : a ++ b < a' ++ b' := by
  induction a generalizing a' with
  | nil =>
    cases List.length_eq_zero_iff.1 same.symm
    exact absurd less (List.not_lt_nil [])
  | cons c a ih =>
    cases a' with
    | nil => exact absurd less (List.not_lt_nil _)
    | cons c' a' =>
      rw [List.cons_append, List.cons_append, List.cons_lt_cons_iff]
      rcases List.cons_lt_cons_iff.1 less with first | ⟨eq, later⟩
      · exact .inl first
      · exact .inr ⟨eq, ih (Nat.succ.inj same) later⟩

theorem lastDigits_lt {width n n' : Nat} (less : n < n') (fits : n' < 10 ^ width) :
    lastDigits width n < lastDigits width n' := by
  induction width generalizing n n' with
  | zero =>
    rw [Nat.pow_zero] at fits
    omega
  | succ width ih =>
    have fits' : n' / 10 < 10 ^ width := by
      rw [Nat.pow_succ] at fits
      omega
    rw [lastDigits, lastDigits]
    rcases Nat.lt_or_eq_of_le (Nat.div_le_div_right (c := 10) less.le) with front | front
    · exact append_lt_append (by simp) (ih front fits') _ _
    · have last : n % 10 < n' % 10 := by omega
      rw [front]
      exact List.append_left_lt (List.cons_lt_cons_iff.2
        (.inl (digitChar_lt last (Nat.mod_lt _ (by decide)))))

theorem ascii_lastDigits (width n : Nat) : ∀ c ∈ lastDigits width n, c.toNat < 128 := by
  induction width generalizing n with
  | zero => nofun
  | succ width ih =>
    intro c member
    rcases List.mem_append.1 member with front | last
    · exact ih _ c front
    · obtain rfl := List.mem_singleton.1 last
      rw [Nat.toNat_digitChar_of_lt_ten (Nat.mod_lt n (by decide))]
      omega

/-- The program accepts the instant and writes its year with four digits. -/
structure Dated (t : Instant) : Prop where
  supported : t.supported = true
  year : 0 ≤ t.date.year ∧ t.date.year ≤ 9999

/-- Whole milliseconds, those of a leap second counted on. -/
def millis (t : Instant) : Nat := t.nanos / 1000000

def clock (t : Instant) : Nat :=
  t.secondOfDay / 3600 * 10000 + t.secondOfDay / 60 % 60 * 100 +
    (t.secondOfDay % 60 + t.nanos / 1000000000)

def reading (t : Instant) : Nat := t.date.number.toNat * 1000000 + t.clock

def digits (t : Instant) : List Char :=
  lastDigits 14 t.reading ++ '.' :: lastDigits 3 (t.millis % 1000)

variable {t a b : Instant}

theorem Dated.nanos_lt (h : t.Dated) : t.nanos < 2000000000 := by
  have supported := h.supported
  simp only [Instant.supported, Bool.and_eq_true, decide_eq_true_eq] at supported
  exact supported.1.2

theorem Dated.secondOfDay_mod (h : t.Dated) (leap : 1000000000 ≤ t.nanos) :
    t.secondOfDay % 60 = 59 := by
  have supported := h.supported
  simp only [Instant.supported, Instant.leap, Bool.and_eq_true, Bool.or_eq_true, Bool.not_eq_true',
    decide_eq_true_eq, decide_eq_false_iff_not] at supported
  rcases supported.2 with none | last
  · exact absurd leap none
  · exact last

theorem seconds_parts (t : Instant) :
    t.seconds.fdiv secondsPerDay * 86400 + t.secondOfDay = t.seconds ∧ t.secondOfDay < 86400 :=
  floor_parts t.seconds secondsPerDay (by decide)

theorem Dated.clock_lt (h : t.Dated) : t.clock < 1000000 := by
  have inside := t.seconds_parts.2
  have nanos := h.nanos_lt
  unfold clock
  omega

theorem Dated.stamp_eq (h : t.Dated) :
    t.stamp = String.ofList t.digits := by
  obtain ⟨least, most⟩ := h.year
  obtain ⟨month, day⟩ : t.date.month ≤ 12 ∧ t.date.day ≤ 31 := CivilDate.month_day_le _
  have inside := t.seconds_parts.2
  have nanos := h.nanos_lt
  have fraction : t.nanos % 1000000000 / 1000000 = t.millis % 1000 := by
    unfold millis
    omega
  have number : t.reading = ((((t.date.year.toNat * 10 ^ 2 + t.date.month) * 10 ^ 2 + t.date.day) *
      10 ^ 2 + t.secondOfDay / 3600) * 10 ^ 2 + t.secondOfDay / 60 % 60) * 10 ^ 2 +
      (t.secondOfDay % 60 + t.nanos / 1000000000) := by
    unfold reading clock CivilDate.number
    omega
  have year : t.date.year.toNat < 10 ^ 4 := by omega
  have month : t.date.month < 10 ^ 2 := by omega
  have day : t.date.day < 10 ^ 2 := by omega
  have hour : t.secondOfDay / 3600 < 10 ^ 2 := by omega
  have minute : t.secondOfDay / 60 % 60 < 10 ^ 2 := by omega
  have second : t.secondOfDay % 60 + t.nanos / 1000000000 < 10 ^ 2 := by omega
  have milli : t.millis % 1000 < 10 ^ 3 := by omega
  rw [stamp, digits, yearText, if_pos h.year, fraction, number,
    padded_eq_lastDigits (by decide) year,
    padded_eq_lastDigits (by decide) month, padded_eq_lastDigits (by decide) day,
    padded_eq_lastDigits (by decide) hour, padded_eq_lastDigits (by decide) minute,
    padded_eq_lastDigits (by decide) second, padded_eq_lastDigits (by decide) milli,
    lastDigits_append month, lastDigits_append day, lastDigits_append hour,
    lastDigits_append minute, lastDigits_append second]

/-- Within a day, also if the earlier second is a leap second. -/
theorem Dated.clock_lt_of_secondOfDay (h : a.Dated) (less : a.secondOfDay < b.secondOfDay) :
    a.clock < b.clock := by
  have nanos := h.nanos_lt
  have leap : a.nanos < 1000000000 ∨ a.secondOfDay % 60 = 59 :=
    (Nat.lt_or_ge a.nanos 1000000000).imp_right h.secondOfDay_mod
  have hour : a.secondOfDay / 3600 = a.secondOfDay / 60 / 60 := by omega
  have hour' : b.secondOfDay / 3600 = b.secondOfDay / 60 / 60 := by omega
  unfold clock
  rw [hour, hour']
  rcases Nat.lt_or_eq_of_le (Nat.div_le_div_right (c := 60) less.le) with minute | minute
  · generalize a.secondOfDay / 60 = minutes at *
    generalize b.secondOfDay / 60 = minutes' at *
    omega
  · rw [minute]
    omega

theorem Dated.reading_lt (ha : a.Dated) (earlier : a.seconds < b.seconds) :
    a.reading < b.reading := by
  obtain ⟨whole, inside⟩ := a.seconds_parts
  obtain ⟨whole', inside'⟩ := b.seconds_parts
  have year := ha.year.1
  have clock := ha.clock_lt
  by_cases same : a.seconds.fdiv secondsPerDay = b.seconds.fdiv secondsPerDay
  · have date : a.date = b.date := congrArg CivilDate.ofDays same
    have less : a.clock < b.clock := ha.clock_lt_of_secondOfDay (by omega)
    rw [reading, reading, date]
    omega
  · have before : a.seconds.fdiv secondsPerDay < b.seconds.fdiv secondsPerDay := by omega
    have dates : a.date.number < b.date.number := CivilDate.number_ofDays_lt before
    have least : 0 ≤ a.date.number := by
      unfold CivilDate.number
      omega
    unfold reading
    omega

theorem Dated.reading_fits (h : t.Dated) : t.reading < 10 ^ 14 := by
  have clock := h.clock_lt
  have year := h.year.2
  obtain ⟨month, day⟩ : t.date.month ≤ 12 ∧ t.date.day ≤ 31 := CivilDate.month_day_le _
  unfold reading CivilDate.number
  omega

/-- Within a second the reading tells the leap second from the one before it. -/
theorem reading_of_seconds (same : a.seconds = b.seconds) :
    a.reading + b.millis / 1000 = b.reading + a.millis / 1000 := by
  have date : a.date = b.date := by rw [date, date, same]
  have second : a.secondOfDay = b.secondOfDay := by rw [secondOfDay, secondOfDay, same]
  unfold reading clock millis
  rw [date, second]
  omega

def Earlier (a b : Instant) : Prop :=
  a.seconds < b.seconds ∨ a.seconds = b.seconds ∧ a.nanos < b.nanos

def Before (a b : Instant) : Prop :=
  a.seconds < b.seconds ∨ a.seconds = b.seconds ∧ a.millis < b.millis

def SameMillis (a b : Instant) : Prop := a.seconds = b.seconds ∧ a.millis = b.millis

theorem before_trichotomy (a b : Instant) : a.Before b ∨ a.SameMillis b ∨ b.Before a := by
  unfold Before SameMillis
  omega

theorem Earlier.before_or_same (h : a.Earlier b) : a.Before b ∨ a.SameMillis b := by
  unfold Earlier at h
  unfold Before SameMillis millis
  omega

theorem SameMillis.digits_eq (h : a.SameMillis b) : a.digits = b.digits := by
  have readings := reading_of_seconds h.1
  rw [h.2] at readings
  rw [digits, digits, h.2, Nat.add_right_cancel readings]

theorem Before.digits_lt (h : a.Before b) (ha : a.Dated) (hb : b.Dated) :
    a.digits < b.digits := by
  have lower (less : a.reading < b.reading) : a.digits < b.digits :=
    append_lt_append (by simp) (lastDigits_lt less hb.reading_fits) _ _
  rcases h with earlier | ⟨same, less⟩
  · exact lower (ha.reading_lt earlier)
  · have readings := reading_of_seconds same
    by_cases leap : a.millis / 1000 = b.millis / 1000
    · have equal : a.reading = b.reading := by omega
      have within : a.millis % 1000 < b.millis % 1000 := by omega
      have fits : b.millis % 1000 < 10 ^ 3 := Nat.mod_lt _ (by decide)
      rw [digits, digits, equal]
      exact List.append_left_lt (List.cons_lt_cons_iff.2 (.inr ⟨rfl, lastDigits_lt within fits⟩))
    · exact lower (by omega)

theorem ascii_digits (t : Instant) : ∀ c ∈ t.digits, c.toNat < 128 := by
  intro c member
  rcases List.mem_append.1 member with reading | rest
  · exact ascii_lastDigits _ _ c reading
  · rcases List.mem_cons.1 rest with rfl | fraction
    · decide
    · exact ascii_lastDigits _ _ c fraction

theorem Dated.length_stamp (h : t.Dated) : t.stamp.length = 18 := by
  rw [h.stamp_eq, String.length_ofList, digits, List.length_append, List.length_cons,
    length_lastDigits, length_lastDigits]

theorem Before.bytes_lt (h : a.Before b) (ha : a.Dated) (hb : b.Dated) :
    Text.bytes a.stamp < Text.bytes b.stamp := by
  rw [ha.stamp_eq, hb.stamp_eq]
  exact Text.bytes_lt_of_ascii a.ascii_digits b.ascii_digits (h.digits_lt ha hb)

theorem SameMillis.stamp_eq (h : a.SameMillis b) (ha : a.Dated) (hb : b.Dated) :
    a.stamp = b.stamp := by
  rw [ha.stamp_eq, hb.stamp_eq, h.digits_eq]

theorem bytes_lt_iff (ha : a.Dated) (hb : b.Dated) :
    Text.bytes a.stamp < Text.bytes b.stamp ↔ a.Before b := by
  constructor
  · intro less
    rcases before_trichotomy a b with before | same | after
    · exact before
    · rw [same.stamp_eq ha hb] at less
      exact absurd less (List.lt_irrefl _)
    · exact absurd less (List.lt_asymm (after.bytes_lt hb ha))
  · exact fun before => before.bytes_lt ha hb

theorem stamp_eq_iff (ha : a.Dated) (hb : b.Dated) : a.stamp = b.stamp ↔ a.SameMillis b := by
  constructor
  · intro same
    rcases before_trichotomy a b with before | eq | after
    · have less := before.bytes_lt ha hb
      rw [same] at less
      exact absurd less (List.lt_irrefl _)
    · exact eq
    · have less := after.bytes_lt hb ha
      rw [same] at less
      exact absurd less (List.lt_irrefl _)
  · exact fun eq => eq.stamp_eq ha hb

end Instant

namespace Automatic

open Instant

/-- The automatic time has 18 characters, and its bytes are in the order of the instants: it is the
same for the instants of one millisecond and greater for later ones. -/
theorem datetime_sorts {a b : Instant} (ha : a.Dated) (hb : b.Dated) (pid pid' : Nat) :
    ∃ s s', (vars a pid).get? datetimeName = some s ∧
      (vars b pid').get? datetimeName = some s' ∧ s.length = 18 ∧ s'.length = 18 ∧
      (Text.bytes s < Text.bytes s' ↔ a.Before b) ∧
      (a.Earlier b → ¬ Text.bytes s' < Text.bytes s) ∧
      (s = s' ↔ a.seconds = b.seconds ∧ a.nanos / 1000000 = b.nanos / 1000000) := by
  refine ⟨a.stamp, b.stamp, get?_datetime a pid, get?_datetime b pid', ha.length_stamp,
    hb.length_stamp, bytes_lt_iff ha hb, ?_, stamp_eq_iff ha hb⟩
  intro earlier greater
  rcases earlier.before_or_same with before | same
  · exact List.lt_asymm (before.bytes_lt ha hb) greater
  · rw [same.stamp_eq ha hb] at greater
    exact List.lt_irrefl _ greater

/-- Half a second into the leap second at the end of 2016, and the year that follows. -/
theorem datetime_sorts_leapSecond :
    Dated ⟨1483228799, 1500000000⟩ ∧ Dated ⟨1483228800, 0⟩ ∧
      stamp ⟨1483228799, 1500000000⟩ = "20161231235960.500" ∧
      ¬ Text.bytes (stamp ⟨1483228800, 0⟩) < Text.bytes (stamp ⟨1483228799, 1500000000⟩) := by
  have ha : Dated ⟨1483228799, 1500000000⟩ := ⟨by decide +kernel, by decide +kernel⟩
  have hb : Dated ⟨1483228800, 0⟩ := ⟨by decide +kernel, by decide +kernel⟩
  obtain ⟨s, s', own, next, _, _, _, sorted, _⟩ := datetime_sorts ha hb 1 1
  cases (get?_datetime _ _).symm.trans own
  cases (get?_datetime _ _).symm.trans next
  exact ⟨ha, hb, by decide +kernel, sorted (.inl (by decide))⟩

end Automatic
end ScopedCommands
