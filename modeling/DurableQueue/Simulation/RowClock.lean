import DurableQueue.Time.Instant

/-!
# The clock for rows

The clock that is read for rows almost stands still: each reading is a microsecond after the one
before.

* `RowClock.read` reads the clock;
* `visibility` is when a row becomes visible, as seen from a reading.
-/

namespace DurableQueue.Simulation

/-- A clock, by the number of its readings. -/
structure RowClock where
  readings : Nat := 0
  deriving DecidableEq, Repr

namespace RowClock

/-- The nanoseconds of the first reading since the start of 1970. -/
def start : Int := 1700000000000000000

/-- Read the clock. -/
def read (c : RowClock) : Instant × RowClock :=
  ((Instant.ofNanos? (start + c.readings * 1000)).getD .greatest, ⟨c.readings + 1⟩)

end RowClock

/-- When a row becomes visible. -/
inductive Visibility
  /-- In a number of seconds. -/
  | within (seconds : Int)
  | never
  deriving DecidableEq, Repr

/-- When a row becomes visible, seen from some time and rounded to seconds. -/
def visibility (now next : Instant) : Visibility :=
  if next = .greatest then .never
  else .within ((next.nanos - now.nanos + nanosPerSecond / 2) / nanosPerSecond)

end DurableQueue.Simulation
