import DurableQueue.Settings.Failure
import Mathlib.Algebra.Order.Ring.Nat

/-!
# The delays of failures

* `FailureRetryType.factor` is the exact factor of the interval, stopped at the greatest number of
  32 bits, and `multiplier_eq_factor` says that the steps of the computation come to it;
* `one_le_factor` and `factor_le_factor`: the factor is never zero, and never falls;
* `failure_delays_are_exact` is the main statement.
-/

namespace DurableQueue

open Decimal

namespace FailureRetryType

/-- The factor of the interval after `a` attempts: one, the odd number `2 a + 1`, or the power
`2 ^ a`, each up to the greatest number of 32 bits. -/
def factor : FailureRetryType → Nat → Nat
  | .linear, _ => 1
  | .arithmetic, a => min max32 (2 * a + 1)
  | .geometric, a => min max32 (2 ^ a)

/-- A power of two has 32 bits exactly up to the exponent 31. -/
theorem pow_two_le_max32_iff {a : Nat} : 2 ^ a ≤ max32 ↔ a < 32 := by
  have hmax : max32 + 1 = 2 ^ 32 := by decide
  rw [← Nat.lt_add_one_iff, hmax, Nat.pow_lt_pow_iff_right (by decide)]

/-- The steps that are stopped one by one come to the factor that is stopped once. -/
theorem multiplier_eq_factor (t : FailureRetryType) (a : Nat) : t.multiplier a = t.factor a := by
  cases t with
  | linear => rfl
  | arithmetic =>
    show min (min (2 * a) max32 + 1) max32 = min max32 (2 * a + 1)
    omega
  | geometric =>
    show (if a < 32 then 2 ^ a else max32) = min max32 (2 ^ a)
    split
    next h => exact (Nat.min_eq_right (pow_two_le_max32_iff.2 h)).symm
    next h => exact (Nat.min_eq_left (Nat.le_of_not_le (mt pow_two_le_max32_iff.1 h))).symm

theorem one_le_factor (t : FailureRetryType) (a : Nat) : 1 ≤ t.factor a := by
  have hmax : 1 ≤ max32 := by decide
  cases t with
  | linear => exact Nat.le_refl 1
  | arithmetic => exact Nat.le_min.2 ⟨hmax, Nat.le_add_left 1 _⟩
  | geometric => exact Nat.le_min.2 ⟨hmax, Nat.one_le_two_pow⟩

theorem factor_le_factor (t : FailureRetryType) {a b : Nat} (h : a ≤ b) :
    t.factor a ≤ t.factor b := by
  cases t with
  | linear => exact Nat.le_refl 1
  | arithmetic =>
    simp only [factor]
    omega
  | geometric =>
    have hpow : 2 ^ a ≤ 2 ^ b := Nat.pow_le_pow_right (by decide) h
    simp only [factor]
    omega

end FailureRetryType

namespace FailureSettings

theorem nanos_delayForAttempt (s : FailureSettings) (attempts : Count) :
    (s.delayForAttempt attempts).nanos
      = min Delay.greatest.nanos (s.retryInterval.nanos * s.retryType.factor attempts.val) := by
  rw [delayForAttempt, Delay.nanos_scale, FailureRetryType.multiplier_eq_factor, Nat.min_comm]
  rfl

/-- **The delays of failures are exact**: to the nanosecond, a delay is the interval times its
factor, up to the greatest delay. So it is at least the interval, and it never falls with more
attempts. -/
theorem failure_delays_are_exact (s : FailureSettings) (attempts : Count) :
    (s.delayForAttempt attempts).nanos
      = min Delay.greatest.nanos (s.retryInterval.nanos * s.retryType.factor attempts.val) ∧
    s.retryInterval ≤ s.delayForAttempt attempts ∧
    ∀ more : Count, attempts.val ≤ more.val →
      s.delayForAttempt attempts ≤ s.delayForAttempt more := by
  refine ⟨s.nanos_delayForAttempt attempts, ?_, fun more hmore => ?_⟩
  · rw [Delay.le_def, nanos_delayForAttempt]
    have hone := s.retryType.one_le_factor attempts.val
    exact Nat.le_min.2 ⟨s.retryInterval.le_limit, Nat.le_mul_of_pos_right _ hone⟩
  · rw [Delay.le_def, nanos_delayForAttempt, nanos_delayForAttempt]
    have hfactor := s.retryType.factor_le_factor hmore
    have hmul := Nat.mul_le_mul_left s.retryInterval.nanos hfactor
    omega

/-- A second is doubled up to the greatest number of 32 bits, and no further. -/
example :
    [31, 32, 33].map (FailureSettings.delayForAttempt ⟨.geometric, .ofSeconds 1⟩ ∘ Count.clamp)
      = [.ofSeconds 2147483648, .ofSeconds 4294967295, .ofSeconds 4294967295] := by
  decide

end FailureSettings

end DurableQueue
