import DirList.Time.Rounding

/-!
# Timestamps

A timestamp is a count of seconds and nanoseconds since 1970. Ordering reads it as a whole number of
nanoseconds. Display reads it as a number of 53 significant bits, `seconds + 1e-9 * nanos` with each
step rounded; such numbers are held exactly, as whole counts of ticks of 2⁻⁸² seconds.
-/

namespace DirList

structure Timestamp where
  seconds : Int
  nanos : Int
deriving DecidableEq, Repr, Inhabited

namespace Timestamp

/-- The ticks of one second: 2⁸². -/
def ticksPerSecond : Int := 0x400000000000000000000

/-- The ticks of the number of 53 significant bits that is nearest to a billionth of a second. -/
def ticksPerNano : Int := 0x112E0BE826D695

/-- The significant bits of a displayed time. -/
def precision : Nat := 53

/-- A whole number of seconds as it is displayed. -/
def roundedSeconds (seconds : Int) : Int :=
  roundInt precision (seconds * ticksPerSecond)

/-- A count of nanoseconds as it is displayed, in ticks: the count and its product with the length
of a nanosecond are both rounded. -/
def roundedNanos (nanos : Int) : Int :=
  roundInt precision (ticksPerNano * roundInt precision nanos)

/-- The time in ticks as it is displayed. -/
def ticks (time : Timestamp) : Int :=
  roundInt precision (roundedSeconds time.seconds + roundedNanos time.nanos)

/-- The exact time in nanoseconds. -/
def nanoseconds (time : Timestamp) : Int :=
  time.seconds * 1000000000 + time.nanos

end Timestamp
end DirList
