import DirList.Time.Label
import Mathlib.Algebra.Group.Nat.Defs
import Mathlib.Data.Nat.Basic

/-!
# The lengths of labels

The calendar gives every day a month from 1 to 12 and a day of the month that needs two digits at
most. So labels have a fixed length as long as their years have four digits: a full one has 20
characters, and both kinds of short ones have 12.

Results:
1. `isProper_ofDay`: the months and days of the calendar.
2. `isProper_ofSecond`: with the hours, minutes and seconds.
3. `length_label`: the length of a label.
-/

namespace DirList

/-! ## Dates -/

/-- A month of the year and a day that some month has. -/
structure CivilDate.IsProper (date : CivilDate) : Prop where
  month : 1 ≤ date.month ∧ date.month ≤ 12
  day : 1 ≤ date.day ∧ date.day ≤ 31

/-- A proper date with a time of day. -/
structure CivilTime.IsProper (time : CivilTime) : Prop where
  date : time.date.IsProper
  hour : time.hour < 24
  minute : time.minute < 60
  second : time.second < 60

namespace CivilDate

/-- A day lies in one of the twelve months of a year that starts in March. -/
theorem monthOf_le {dayOfYear : Nat} (inside : dayOfYear ≤ yearDays) : monthOf dayOfYear ≤ 11 := by
  unfold monthOf
  unfold yearDays at inside
  omega

/-- No month has more than 31 days. -/
theorem dayOfMonth_le (dayOfYear : Nat) : dayOfYear - daysBefore (monthOf dayOfYear) ≤ 30 := by
  unfold daysBefore monthOf
  omega

theorem isProper_ofDayOfEra (firstYear : Int) (dayOfEra : Nat) :
    (ofDayOfEra firstYear dayOfEra).IsProper := by
  unfold ofDayOfEra
  extract_lets century dayOfCentury quad dayOfQuad year dayOfYear month
  -- The last of four years takes in the leap day.
  have inside : dayOfYear ≤ yearDays := by
    have rest : dayOfQuad < quadDays := Nat.mod_lt _ (by decide)
    have counted : year = min (dayOfQuad / yearDays) 3 := rfl
    have same : dayOfYear = dayOfQuad - year * yearDays := rfl
    unfold quadDays at rest
    unfold yearDays at counted same ⊢
    omega
  have twelve : month ≤ 11 := monthOf_le inside
  have days : dayOfYear - daysBefore month ≤ 30 := dayOfMonth_le dayOfYear
  refine ⟨?_, Nat.le_add_left _ _, Nat.succ_le_succ days⟩
  dsimp only
  split <;> omega

theorem isProper_ofDay (day : Int) : (ofDay day).IsProper :=
  isProper_ofDayOfEra _ _

end CivilDate

theorem CivilTime.isProper_ofSecond (second : Int) : (ofSecond second).IsProper := by
  have inside : (second % 86400).toNat < 86400 := by omega
  refine ⟨CivilDate.isProper_ofDay _, ?_, Nat.mod_lt _ (by decide), Nat.mod_lt _ (by decide)⟩
  show (second % 86400).toNat / 3600 < 24
  omega

/-! ## Labels -/

theorem length_monthName {month : Nat} (proper : 1 ≤ month ∧ month ≤ 12) :
    (monthName month).length = 3 := by
  have each : ∀ month < 12, (monthNames.getD month "").length = 3 := by decide
  exact each (month - 1) (by omega)

theorem length_digits_le_iff {n count : Nat} (some : 0 < count) :
    (digits n).length ≤ count ↔ n < 10 ^ count := by
  rw [digits, String.length_ofList, Nat.length_toDigits_le_iff (by decide) some]

theorem length_digits_pos (n : Nat) : 0 < (digits n).length := by
  rw [digits, String.length_ofList]
  exact Nat.length_toDigits_pos

theorem length_twoDigits {n : Nat} (small : n < 100) : (twoDigits n).length = 2 := by
  have some := length_digits_pos n
  unfold twoDigits
  split
  next one =>
    have most := (length_digits_le_iff Nat.one_pos).mpr one
    rw [String.length_append]
    exact congrArg (1 + ·) (le_antisymm most some)
  next two =>
    have most := (length_digits_le_iff Nat.two_pos).mpr small
    have least := mt (length_digits_le_iff Nat.one_pos).mp two
    omega

/-- Whether a year is written with four digits. -/
def IsFourDigitYear (year : Int) : Prop :=
  1000 ≤ year ∧ year ≤ 9999

instance (year : Int) : Decidable (IsFourDigitYear year) :=
  inferInstanceAs (Decidable (_ ∧ _))

theorem length_decimal_year {year : Int} (four : IsFourDigitYear year) :
    (decimal year).length = 4 := by
  obtain ⟨least, most⟩ := four
  have few : (digits year.toNat).length ≤ 4 := (length_digits_le_iff (by decide)).mpr (by omega)
  have many : ¬(digits year.toNat).length ≤ 3 := mt (length_digits_le_iff (by decide)).mp (by omega)
  rw [decimal, if_neg (by omega)]
  omega

namespace CivilTime.IsProper

variable {time : CivilTime} (proper : time.IsProper)

include proper

theorem length_monthAndDay : time.monthAndDay.length = 6 := by
  have short : time.date.day < 10 ^ 2 := Nat.lt_of_le_of_lt proper.date.day.2 (by decide)
  rw [monthAndDay, String.length_append, String.length_append, length_padLeft,
    max_eq_left ((length_digits_le_iff Nat.two_pos).mpr short), length_monthName proper.date.month]
  rfl

theorem length_clock : time.clock.length = 5 := by
  rw [clock, String.length_append, String.length_append,
    length_twoDigits (Nat.lt_trans proper.hour (by decide)),
    length_twoDigits (Nat.lt_trans proper.minute (by decide))]
  rfl

theorem length_recentLabel : time.recentLabel.length = 12 := by
  rw [recentLabel, String.length_append, String.length_append, proper.length_monthAndDay,
    proper.length_clock]
  rfl

theorem length_yearLabel (four : IsFourDigitYear time.date.year) : time.yearLabel.length = 12 := by
  rw [yearLabel, String.length_append, String.length_append, proper.length_monthAndDay,
    length_decimal_year four]
  rfl

theorem length_fullLabel (four : IsFourDigitYear time.date.year) : time.fullLabel.length = 20 := by
  have seconds := length_twoDigits (Nat.lt_trans proper.second (by decide : 60 < 100))
  simp only [fullLabel, String.length_append, proper.length_monthAndDay, proper.length_clock,
    seconds, length_decimal_year four]
  rfl

end CivilTime.IsProper

/-- Whether the label of a moment shows the year. -/
def Moment.showsYear (full : Bool) (moment now : Moment) : Bool :=
  full || !moment.isRecent now

/-- The year of a moment. -/
def Moment.year (moment : Moment) : Int :=
  (CivilTime.ofSecond moment.second).date.year

/-- The length of a label, if the year that it shows has four digits. -/
theorem length_label {full : Bool} {moment now : Moment}
    (four : moment.showsYear full now = true → IsFourDigitYear moment.year) :
    (moment.label full now).length = if full then 20 else 12 := by
  have proper := CivilTime.isProper_ofSecond moment.second
  unfold Moment.label
  unfold Moment.showsYear at four
  cases full with
  | true => exact proper.length_fullLabel (four rfl)
  | false =>
    cases recent : moment.isRecent now with
    | true => exact proper.length_recentLabel
    | false => exact proper.length_yearLabel (four (by rw [recent]; rfl))

end DirList
