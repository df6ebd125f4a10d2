import DirList.Time.Stamp

/-!
# Moments

A moment is a time to be displayed. What a file system or a clock measures is rounded, and stays so
in every sum. A whole number of seconds that a caller names is kept as it is, however large.
-/

namespace DirList

inductive Moment where
  /-- A whole number of seconds, exactly. -/
  | whole (seconds : Int)
  /-- A rounded number of seconds, in ticks. -/
  | rounded (ticks : Int)
deriving DecidableEq, Repr, Inhabited

namespace Moment

/-- The seconds of a moment in ticks, for comparing moments of both kinds. -/
def ticks : Moment → Int
  | whole seconds => seconds * Timestamp.ticksPerSecond
  | rounded ticks => ticks

/-- The second in which a moment lies. -/
def second : Moment → Int
  | whole seconds => seconds
  | rounded ticks => ticks / Timestamp.ticksPerSecond

/-- The moment some seconds later. -/
def after (delay : Int) : Moment → Moment
  | whole seconds => whole (seconds + delay)
  | rounded ticks =>
    rounded (roundInt Timestamp.precision (ticks + delay * Timestamp.ticksPerSecond))

end Moment

namespace Timestamp

/-- The moment of a time that was measured. -/
def measured (time : Timestamp) : Moment :=
  .rounded time.ticks

/-- The moment of a time that a caller names. -/
def named (time : Timestamp) : Moment :=
  if time.nanos = 0 then .whole time.seconds else time.measured

end Timestamp
end DirList
