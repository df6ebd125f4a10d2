import DirList.Proofs.Time.Labels

/-!
# Counting the days of dates

A date is the date of one day only: the day is counted back from the years, the months and the days
before it. Two days of the same month and day of the month are a year apart at least, so within less
than a year they tell days apart even if the year is left out.

Results:
1. `dayOf_ofDay`: the calendar is inverted by counting days.
2. `ofDay_injective`: so a date is the date of one day only.
3. `ofDay_eq_of_close`: within less than a year the year may be left out.
4. `year_ofDay_lt`: a day that is not far from 1970 lies in a year that is not far from it.
-/

namespace DirList.CivilDate

/-- The first of March of a year, counted in days from that of year 0. -/
def startOfYear (year : Int) : Int :=
  365 * year + year / 4 - year / 100 + year / 400

/-- The month counted from March. -/
def sinceMarch (date : CivilDate) : Nat :=
  if 2 < date.month then date.month - 3 else date.month + 9

/-- The year that started with March. -/
def marchYear (date : CivilDate) : Int :=
  if 2 < date.month then date.year else date.year - 1

/-- The day of a date, counted from the first of January 1970. -/
def dayOf (date : CivilDate) : Int :=
  startOfYear date.marchYear + daysBefore date.sinceMarch + date.day - 1 - epochDay

/-- A year has 365 days at least. -/
theorem startOfYear_lt {year year' : Int} (less : year < year') :
    startOfYear year + 365 ≤ startOfYear year' := by
  unfold startOfYear
  omega

/-- The years of an era start after whole centuries, fours and single years. -/
theorem startOfYear_of_parts (era : Int) {century quad year : Nat} (centuries : century ≤ 3)
    (quads : quad ≤ 24) (years : year ≤ 3) :
    startOfYear (400 * era + (100 * century + 4 * quad + year : Nat)) =
      era * eraDays + (century * centuryDays + quad * quadDays + year * yearDays : Nat) := by
  unfold startOfYear eraDays centuryDays quadDays yearDays
  omega

/-- No month starts after the days that lie in it. -/
theorem daysBefore_monthOf_le (dayOfYear : Nat) : daysBefore (monthOf dayOfYear) ≤ dayOfYear := by
  unfold daysBefore monthOf
  omega

/-- January and February belong to the year that started with the March before them. -/
theorem parts_of_month {month : Nat} (twelve : month ≤ 11) (year : Int) (day : Nat) :
    let date : CivilDate :=
      ⟨year + if month < 10 then 0 else 1, if month < 10 then month + 3 else month - 9, day⟩
    date.marchYear = year ∧ date.sinceMarch = month := by
  unfold marchYear sinceMarch
  dsimp only
  constructor <;> split <;> split <;> omega

/-- Counting back from the date of a day of an era gives this day. -/
theorem dayOf_ofDayOfEra (era : Int) {dayOfEra : Nat} (inside : dayOfEra < eraDays) :
    dayOf (ofDayOfEra (400 * era) dayOfEra) = era * eraDays + dayOfEra - epochDay := by
  unfold ofDayOfEra
  extract_lets century dayOfCentury quad dayOfQuad year dayOfYear month
  have centuries : century = min (dayOfEra / centuryDays) 3 := rfl
  have ofCentury : dayOfCentury = dayOfEra - century * centuryDays := rfl
  have quads : quad = dayOfCentury / quadDays := rfl
  have ofQuad : dayOfQuad = dayOfCentury % quadDays := rfl
  have years : year = min (dayOfQuad / yearDays) 3 := rfl
  have ofYear : dayOfYear = dayOfQuad - year * yearDays := rfl
  have started : daysBefore month ≤ dayOfYear := daysBefore_monthOf_le dayOfYear
  unfold eraDays at inside
  unfold centuryDays at centuries ofCentury
  unfold quadDays at quads ofQuad
  unfold yearDays at years ofYear
  have twelve : month ≤ 11 := monthOf_le (by unfold yearDays; omega)
  have whole : dayOfEra =
      century * centuryDays + quad * quadDays + year * yearDays + dayOfYear := by
    unfold centuryDays quadDays yearDays
    omega
  have lastCentury : century ≤ 3 := by omega
  have lastQuad : quad ≤ 24 := by omega
  have lastYear : year ≤ 3 := by omega
  have start := startOfYear_of_parts era lastCentury lastQuad lastYear
  obtain ⟨marchYear, sinceMarch⟩ := parts_of_month twelve
    (400 * era + (100 * century + 4 * quad + year : Nat)) (dayOfYear - daysBefore month + 1)
  rw [dayOf, marchYear, sinceMarch, start]
  dsimp only
  omega

/-- The calendar is inverted by counting days. -/
theorem dayOf_ofDay (day : Int) : dayOf (ofDay day) = day := by
  unfold ofDay
  extract_lets sinceMarch
  have same : sinceMarch = day + epochDay := rfl
  have inside : (sinceMarch % eraDays).toNat < eraDays := by
    unfold eraDays
    omega
  rw [dayOf_ofDayOfEra _ inside]
  unfold eraDays
  omega

theorem ofDay_injective : Function.Injective ofDay :=
  Function.LeftInverse.injective dayOf_ofDay

/-- Within less than a year, the month and the day of the month tell days apart. -/
theorem ofDay_eq_of_close {day day' : Int} (close : (day - day').natAbs < 365)
    (months : (ofDay day).month = (ofDay day').month)
    (days : (ofDay day).day = (ofDay day').day) : day = day' := by
  have first := dayOf_ofDay day
  have second := dayOf_ofDay day'
  have since : (ofDay day).sinceMarch = (ofDay day').sinceMarch := by
    rw [CivilDate.sinceMarch, CivilDate.sinceMarch, months]
  unfold dayOf at first second
  rw [since, days] at first
  rcases Int.lt_trichotomy (ofDay day).marchYear (ofDay day').marchYear with less | same | more
  · have apart := startOfYear_lt less
    omega
  · rw [same] at first
    omega
  · have apart := startOfYear_lt more
    omega

/-- No year has less than 365 days, so a day that is not far from 1970 lies in a year that is not
far from it. -/
theorem year_ofDay_lt {day : Int} (near : day.natAbs < 2 ^ 37) :
    (ofDay day).year.natAbs < 2 ^ 30 := by
  have counted := dayOf_ofDay day
  obtain ⟨months, days⟩ := isProper_ofDay day
  generalize ofDay day = date at counted months days ⊢
  unfold dayOf startOfYear marchYear sinceMarch daysBefore epochDay at counted
  rw [show 2 ^ 37 = 137438953472 by rfl] at near
  rw [show 2 ^ 30 = 1073741824 by rfl]
  split at counted <;> omega

end DirList.CivilDate
