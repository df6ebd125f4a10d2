import DirList.Error.System
import DirList.Time.Calendar
import DirList.Time.Moment

/-!
# Times in a listing

A full label shows everything down to the second. A short one shows the time of day of a recent
time, and the year of a time half a year or more away from now, in the past or in the future. The
calendar ends far from now in both directions, and times beyond it have no labels.
-/

namespace DirList

/-- A number from 0 to 99 in two digits. -/
def twoDigits (n : Nat) : String :=
  if n < 10 then "0" ++ digits n else digits n

namespace CivilTime

/-- The month and the day, the day in a field of two. -/
def monthAndDay (time : CivilTime) : String :=
  monthName time.date.month ++ " " ++ padLeft 2 (digits time.date.day)

/-- The hour and the minute. -/
def clock (time : CivilTime) : String :=
  twoDigits time.hour ++ ":" ++ twoDigits time.minute

/-- The label with the second and the year. -/
def fullLabel (time : CivilTime) : String :=
  time.monthAndDay ++ " " ++ time.clock ++ ":" ++ twoDigits time.second ++ " "
    ++ decimal time.date.year

/-- The label of a recent time. -/
def recentLabel (time : CivilTime) : String :=
  time.monthAndDay ++ " " ++ time.clock

/-- The label of a distant time. -/
def yearLabel (time : CivilTime) : String :=
  time.monthAndDay ++ "  " ++ decimal time.date.year

end CivilTime

/-- Why a date cannot be told. -/
inductive DateFault where
  /-- A number that is too large or too small. -/
  | overflow
  | system (error : SystemError)
deriving DecidableEq, Repr, Inhabited

namespace Moment

/-- The seconds of half a year of 364 days, the reach of recent times. -/
def recentSeconds : Int := 182 * 86400

/-- Whether a moment lies less than half a year from now. -/
def isRecent (moment now : Moment) : Bool :=
  (now.after (-recentSeconds)).ticks < moment.ticks
    && moment.ticks < (now.after recentSeconds).ticks

/-- The first number that does not fit into a word of 64 bits. -/
def wordEnd : Int := 0x8000000000000000

/-- The first number that does not fit into half a word. -/
def halfWordEnd : Int := 0x80000000

/-- Whether the seconds of a moment fit into a word. A rounded number is compared with a rounded
bound, and so it may reach the end. -/
def isWord : Moment → Bool
  | whole seconds => -wordEnd ≤ seconds && seconds < wordEnd
  | rounded ticks => -wordEnd ≤ (rounded ticks).second && (rounded ticks).second ≤ wordEnd

/-- Why the date of a moment cannot be told, if it cannot: its seconds have to fit into a word, its
year into half a word when it is counted from 1900, and then the year itself. -/
def fault? (moment : Moment) : Option DateFault :=
  let year := (CivilTime.ofSecond moment.second).date.year
  if !moment.isWord then some .overflow
  else if year - 1900 < -halfWordEnd || halfWordEnd ≤ year - 1900 then some (.system .tooLarge)
  else if halfWordEnd ≤ year then some .overflow
  else none

/-- The label of a moment in a listing made now. -/
def label (full : Bool) (moment now : Moment) : String :=
  let civil := CivilTime.ofSecond moment.second
  if full then civil.fullLabel
  else if moment.isRecent now then civil.recentLabel
  else civil.yearLabel

/-- The label of a moment in a listing made now, unless its date cannot be told. -/
def told (full : Bool) (moment now : Moment) : Except DateFault String :=
  match moment.fault? with
  | some fault => .error fault
  | none => .ok (moment.label full now)

end Moment
end DirList
