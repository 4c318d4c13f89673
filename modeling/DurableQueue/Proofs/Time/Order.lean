import DurableQueue.Time.Instant
import Mathlib.Order.Defs.LinearOrder

/-!
# The order of instants

Instants are ordered by second, then by nanosecond, and this order is linear.

* `lt_iff` and `le_iff` state the order on the components;
* `le_greatest`: only in a leap second is an instant after the greatest one;
* `Reading` is a time that a clock can show. Clocks do not show leap seconds.
-/

namespace DurableQueue

namespace Instant

@[ext] theorem ext {a b : Instant} (hs : a.second = b.second) (hn : a.nano = b.nano) : a = b := by
  cases a; cases b; simp_all

theorem lt_iff {a b : Instant} :
    a < b ↔ a.second < b.second ∨ a.second = b.second ∧ a.nano < b.nano := by
  show a.before b = true ↔ _
  simp [before]

theorem le_iff {a b : Instant} :
    a ≤ b ↔ a.second < b.second ∨ a.second = b.second ∧ a.nano ≤ b.nano := by
  show (!b.before a) = true ↔ _
  simp only [before, Bool.not_eq_true', Bool.or_eq_false_iff, Bool.and_eq_false_iff,
    decide_eq_false_iff_not, beq_eq_false_iff_ne]
  omega

instance : LinearOrder Instant where
  le_refl a := le_iff.2 (by omega)
  le_trans a b c hab hbc := by rw [le_iff] at *; omega
  le_antisymm a b hab hba := by rw [le_iff] at *; ext <;> omega
  le_total a b := by simp only [le_iff]; omega
  lt_iff_le_not_ge a b := by simp only [lt_iff, le_iff]; omega
  toDecidableLE := inferInstance

/-- Outside of leap seconds no instant is after the greatest one. -/
theorem le_greatest {t : Instant} (h : t.inLeapSecond = false) : t ≤ greatest := by
  have hn : ¬ nanosPerSecond ≤ t.nano := of_decide_eq_false h
  have hs := t.valid.2.1
  simp only [nanosPerSecond] at hn
  refine le_iff.2 ?_
  simp only [greatest, nanosPerSecond]
  omega

end Instant

/-- A time that a clock shows, which is never within a leap second. -/
structure Reading where
  time : Instant
  steady : time.inLeapSecond = false
  deriving DecidableEq

end DurableQueue
