import DurableQueue.Time.Delay

/-!
# Points in time

An instant is a count of whole seconds since the start of 1970 and of nanoseconds within the second.
The last second of a minute may be a leap second; its nanoseconds run on from `10 ^ 9`.

* `Instant.le`: instants are ordered by second, then by nanosecond;
* `Instant.add?` moves an instant by a delay, if the sum can be represented;
* `Instant.shift` is the time at which a row becomes visible: the sum, or the greatest instant
  when the delay is longer than `2 ^ 63 - 1` milliseconds or the sum cannot be represented.
-/

namespace DurableQueue

namespace Instant

/-- The second of the first instant, at the start of the year -262143. -/
def firstSecond : Int := -8334601228800

/-- The second of the last instant, at the end of the year 262142. -/
def lastSecond : Int := 8210266876799

/-- A second in range and nanoseconds that belong to it. -/
def Valid (second : Int) (nano : Nat) : Prop :=
  firstSecond ≤ second ∧ second ≤ lastSecond ∧
    (nano < nanosPerSecond ∨ (nano < 2 * nanosPerSecond ∧ second % 60 = 59))

instance (second : Int) (nano : Nat) : Decidable (Valid second nano) :=
  inferInstanceAs (Decidable (_ ∧ _))

end Instant

/-- A point in time, by its second since the start of 1970 and the nanosecond within it. -/
structure Instant where
  second : Int
  nano : Nat
  valid : Instant.Valid second nano
  deriving DecidableEq, Repr

namespace Instant

/-- Whether one instant is earlier than another. -/
def before (a b : Instant) : Bool :=
  a.second < b.second || (a.second == b.second && a.nano < b.nano)

/-- Whether one instant is no later than another. -/
def upTo (a b : Instant) : Bool := !b.before a

instance : LT Instant := ⟨fun a b => a.before b = true⟩

instance : LE Instant := ⟨fun a b => a.upTo b = true⟩

instance (a b : Instant) : Decidable (a < b) := inferInstanceAs (Decidable (a.before b = true))

instance (a b : Instant) : Decidable (a ≤ b) := inferInstanceAs (Decidable (a.upTo b = true))

/-- The instant of a second and a nanosecond, if they belong together and are in range. -/
def of? (second : Int) (nano : Nat) : Option Instant :=
  if h : Valid second nano then some ⟨second, nano, h⟩ else none

/-- The start of 1970. -/
def epoch : Instant := ⟨0, 0, by decide⟩

instance : Inhabited Instant := ⟨epoch⟩

/-- The last instant that can be represented. -/
def greatest : Instant := ⟨lastSecond, nanosPerSecond - 1, by decide⟩

/-- Nanoseconds since the start of 1970, a leap second counted as part of the next one. -/
def nanos (t : Instant) : Int := t.second * nanosPerSecond + t.nano

/-- The instant of a count of nanoseconds since the start of 1970. -/
def ofNanos? (n : Int) : Option Instant :=
  of? (n / nanosPerSecond) (n % nanosPerSecond).toNat

/-- An instant within a leap second. -/
def inLeapSecond (t : Instant) : Bool := nanosPerSecond ≤ t.nano

theorem inLeapSecond_iff {t : Instant} : t.inLeapSecond = true ↔ nanosPerSecond ≤ t.nano :=
  decide_eq_true_iff

/-- Move an instant by a delay, if the sum can be represented. A leap second is left for the
second after it once its own nanoseconds are used up. -/
def add? (t : Instant) (d : Delay) : Option Instant :=
  if t.inLeapSecond then
    if t.nano + d.nanos < 2 * nanosPerSecond then of? t.second (t.nano + d.nanos)
    else ofNanos? (t.nanos - nanosPerSecond + d.nanos)
  else ofNanos? (t.nanos + d.nanos)

/-- The longest delay that an instant can be moved by, of `2 ^ 63 - 1` milliseconds. -/
def longestShift : Nat := 9223372036854775807 * nanosPerMilli

/-- The instant a delay after another one, or the greatest instant when the delay is too long. -/
def shift (t : Instant) (d : Delay) : Instant :=
  if d.nanos ≤ longestShift then (t.add? d).getD greatest else greatest

theorem of?_eq_some {second : Int} {nano : Nat} {t : Instant} :
    of? second nano = some t ↔ t.second = second ∧ t.nano = nano := by
  unfold of?
  constructor
  · split
    · intro h; cases h; exact ⟨rfl, rfl⟩
    · intro h; cases h
  · rintro ⟨rfl, rfl⟩
    simp [t.valid]

end Instant

end DurableQueue
