/-!
# The calendar

Dates of the Gregorian calendar, continued to all years, in universal time. Years are counted here
from the first of March, so that the leap day is the last day of its year and every cycle of the
calendar has the shorter part last.
-/

namespace DirList

structure CivilDate where
  year : Int
  /-- From 1 to 12. -/
  month : Nat
  /-- From 1. -/
  day : Nat
deriving DecidableEq, Repr, Inhabited

structure CivilTime where
  date : CivilDate
  hour : Nat
  minute : Nat
  second : Nat
deriving DecidableEq, Repr, Inhabited

namespace CivilDate

/-- The days from the first of March of year 0 to the first of January 1970. -/
def epochDay : Int := 719468

/-- The days of four centuries. -/
def eraDays : Nat := 146097

/-- The days of a century without the leap day at its end. -/
def centuryDays : Nat := 36524

/-- The days of four years with a leap day. -/
def quadDays : Nat := 1461

/-- The days of a year without the leap day. -/
def yearDays : Nat := 365

/-- The days before a month, counted from March. -/
def daysBefore (month : Nat) : Nat :=
  (153 * month + 2) / 5

/-- The month in which a day of the year lies, both counted from March. -/
def monthOf (dayOfYear : Nat) : Nat :=
  (5 * dayOfYear + 2) / 153

/-- The date of a day of the era that starts with the first of March of a year divisible by 400. -/
def ofDayOfEra (firstYear : Int) (dayOfEra : Nat) : CivilDate :=
  let century := min (dayOfEra / centuryDays) 3
  let dayOfCentury := dayOfEra - century * centuryDays
  let quad := dayOfCentury / quadDays
  let dayOfQuad := dayOfCentury % quadDays
  let year := min (dayOfQuad / yearDays) 3
  let dayOfYear := dayOfQuad - year * yearDays
  let month := monthOf dayOfYear
  { year := firstYear + (100 * century + 4 * quad + year : Nat) + (if month < 10 then 0 else 1)
    month := if month < 10 then month + 3 else month - 9
    day := dayOfYear - daysBefore month + 1 }

/-- The date of a day counted from the first of January 1970. -/
def ofDay (day : Int) : CivilDate :=
  let sinceMarch := day + epochDay
  ofDayOfEra (400 * (sinceMarch / eraDays)) (sinceMarch % eraDays).toNat

end CivilDate

/-- The date and time of day of a second counted from the start of 1970. -/
def CivilTime.ofSecond (second : Int) : CivilTime :=
  let ofDay := (second % 86400).toNat
  { date := CivilDate.ofDay (second / 86400)
    hour := ofDay / 3600
    minute := ofDay / 60 % 60
    second := ofDay % 60 }

/-- The short names of the months. -/
def monthNames : List String :=
  ["Jan", "Feb", "Mar", "Apr", "May", "Jun", "Jul", "Aug", "Sep", "Oct", "Nov", "Dec"]

/-- The short name of a month from 1 to 12. -/
def monthName (month : Nat) : String :=
  monthNames.getD (month - 1) ""

example : CivilDate.ofDay 0 = ⟨1970, 1, 1⟩ := by decide
example : CivilDate.ofDay 11016 = ⟨2000, 2, 29⟩ := by decide
example : CivilDate.ofDay (-719528) = ⟨0, 1, 1⟩ := by decide

end DirList
