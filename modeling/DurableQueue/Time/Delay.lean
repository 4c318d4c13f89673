/-!
# Delays

A delay is a span of time in whole nanoseconds, from zero up to just below `2 ^ 64` seconds.

* `Delay.clamp n` is the delay of `n` nanoseconds, or the greatest delay;
* `add`, `sub` and `scale` stop at the ends of the range;
* `ofNanos?` and `add?` fail at the upper end instead;
* `nanos_add`, `nanos_scale`, `nanos_sub`: what the operations do to the count of nanoseconds.
-/

namespace DurableQueue

/-- The nanoseconds in a second. -/
def nanosPerSecond : Nat := 1000000000

/-- The nanoseconds in a millisecond. -/
def nanosPerMilli : Nat := 1000000

/-- The nanoseconds of the greatest delay. -/
def Delay.limit : Nat := 18446744073709551615999999999

/-- A span of time, by its count of nanoseconds. -/
structure Delay where
  nanos : Nat
  le_limit : nanos ≤ Delay.limit
  deriving DecidableEq, Repr

namespace Delay

@[ext] theorem ext {a b : Delay} (h : a.nanos = b.nanos) : a = b := by
  cases a; cases b; simp_all

instance : LE Delay := ⟨fun a b => a.nanos ≤ b.nanos⟩

instance : LT Delay := ⟨fun a b => a.nanos < b.nanos⟩

instance (a b : Delay) : Decidable (a ≤ b) := inferInstanceAs (Decidable (a.nanos ≤ b.nanos))

instance (a b : Delay) : Decidable (a < b) := inferInstanceAs (Decidable (a.nanos < b.nanos))

theorem le_def {a b : Delay} : a ≤ b ↔ a.nanos ≤ b.nanos := Iff.rfl

theorem lt_def {a b : Delay} : a < b ↔ a.nanos < b.nanos := Iff.rfl

/-- The delay of a count of nanoseconds, or the greatest delay if the count is too large. -/
def clamp (n : Nat) : Delay := ⟨min n limit, Nat.min_le_right n limit⟩

@[simp] theorem nanos_clamp (n : Nat) : (clamp n).nanos = min n limit := rfl

/-- The delay of a count of nanoseconds, if it is in range. -/
def ofNanos? (n : Nat) : Option Delay := if h : n ≤ limit then some ⟨n, h⟩ else none

theorem ofNanos?_eq_some_iff {n : Nat} {d : Delay} : ofNanos? n = some d ↔ d.nanos = n := by
  unfold ofNanos?
  constructor
  · split
    · rintro h; cases h; rfl
    · intro h; cases h
  · rintro rfl
    simp [d.le_limit]

/-- The delay of no time at all. -/
def zero : Delay := ⟨0, Nat.zero_le _⟩

instance : Inhabited Delay := ⟨zero⟩

/-- The greatest delay. -/
def greatest : Delay := ⟨limit, Nat.le_refl _⟩

/-- The delay of a count of whole seconds. -/
def ofSeconds (s : Nat) : Delay := clamp (s * nanosPerSecond)

/-- The delay of a count of whole milliseconds. -/
def ofMillis (ms : Nat) : Delay := clamp (ms * nanosPerMilli)

/-- The whole seconds of a delay. -/
def seconds (d : Delay) : Nat := d.nanos / nanosPerSecond

/-- The nanoseconds of a delay beyond its whole seconds. -/
def fraction (d : Delay) : Nat := d.nanos % nanosPerSecond

/-- The whole milliseconds of a delay. -/
def millis (d : Delay) : Nat := d.nanos / nanosPerMilli

/-- The sum of two delays, or the greatest delay. -/
def add (a b : Delay) : Delay := clamp (a.nanos + b.nanos)

/-- The sum of two delays, if it is in range. -/
def add? (a b : Delay) : Option Delay := ofNanos? (a.nanos + b.nanos)

/-- The difference of two delays, or no time when the second is longer. -/
def sub (a b : Delay) : Delay :=
  ⟨a.nanos - b.nanos, Nat.le_trans (Nat.sub_le _ _) a.le_limit⟩

/-- A delay repeated `k` times, or the greatest delay. -/
def scale (d : Delay) (k : Nat) : Delay := clamp (d.nanos * k)

@[simp] theorem nanos_add (a b : Delay) : (a.add b).nanos = min (a.nanos + b.nanos) limit := rfl

@[simp] theorem nanos_sub (a b : Delay) : (a.sub b).nanos = a.nanos - b.nanos := rfl

@[simp] theorem nanos_scale (d : Delay) (k : Nat) :
    (d.scale k).nanos = min (d.nanos * k) limit := rfl

theorem clamp_nanos (d : Delay) : clamp d.nanos = d := by
  ext; simp [Nat.min_eq_left d.le_limit]

/-- A delay is its whole seconds and the nanoseconds beyond them. -/
theorem seconds_fraction (d : Delay) : d.seconds * nanosPerSecond + d.fraction = d.nanos :=
  Nat.div_add_mod' d.nanos nanosPerSecond

theorem fraction_lt (d : Delay) : d.fraction < nanosPerSecond := Nat.mod_lt _ (by decide)

theorem seconds_lt (d : Delay) : d.seconds < 18446744073709551616 := by
  have h := d.le_limit
  have hl : limit < 18446744073709551616 * nanosPerSecond := by decide
  exact Nat.div_lt_of_lt_mul (by rw [Nat.mul_comm]; omega)

/-- A delay is told apart from no time by its nanoseconds. -/
def isZero (d : Delay) : Bool := d.nanos == 0

end Delay

end DurableQueue
