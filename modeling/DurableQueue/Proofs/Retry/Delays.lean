import DurableQueue.Retry.Strategy
import Mathlib.Algebra.Order.Ring.Nat

/-!
# The delays of re-enqueue strategies

Delays are computed in several steps, each of which stops at the greatest number of its width. What
comes out is the exact result, stopped once at the end.

* `min_mul_min_of_le`: a product whose factor was stopped, and which was stopped itself, is still
  right below every smaller limit, since it only grows in the factor;
* `delay_arithmetic` and `delay_geometric` are the closed forms, and `delays_are_exact` the main
  statement about all strategies;
* `GrowsAt` says that a delay is longer than the one before, unless that was the longest possible.
  `growing_delays_grow` says when this holds: a geometric delay has to start with a whole
  millisecond, or it stays at no time at all (`delay_of_lt_milli`).
-/

namespace DurableQueue

open Decimal

/-! ### Closed forms -/

/-- A product is stopped at a limit in the same way if its factor and itself were stopped at a
greater limit before. -/
theorem min_mul_min_of_le {limit cap : Nat} (h : limit ≤ cap) (m p : Nat) :
    min (min (m * min cap p) cap) limit = min (m * p) limit := by
  rcases Nat.le_total p cap with hp | hp
  · rw [Nat.min_eq_right hp, Nat.min_assoc, Nat.min_eq_right h]
  · rw [Nat.min_eq_left hp]
    rcases Nat.eq_zero_or_pos m with rfl | hm
    · simp
    · -- both products are beyond the limit
      have hcap : cap ≤ m * cap := Nat.le_mul_of_pos_left cap hm
      have hmul : m * cap ≤ m * p := Nat.mul_le_mul_left m hp
      omega

namespace Delay

theorem nanos_add_scale (a b : Delay) (k : Nat) :
    (a.add (b.scale k)).nanos = min limit (a.nanos + k * b.nanos) := by
  rw [nanos_add, nanos_scale, Nat.mul_comm]
  omega

/-- Milliseconds of 64 bits are within the range of delays. -/
theorem nanos_ofMillis {ms : Nat} (h : ms ≤ max64) : (ofMillis ms).nanos = ms * nanosPerMilli := by
  have hlimit : max64 * nanosPerMilli ≤ limit := by decide
  exact Nat.min_eq_left (Nat.le_trans (Nat.mul_le_mul_right _ h) hlimit)

theorem millis_pos_iff {d : Delay} : 0 < d.millis ↔ nanosPerMilli ≤ d.nanos :=
  Nat.div_pos_iff.trans (and_iff_right (by decide))

end Delay

namespace Strategy

theorem delay_arithmetic (initial step : Delay) (n : Count) :
    (arithmetic initial step).delay n = .ok (.clamp (initial.nanos + n.val * step.nanos)) := by
  refine congrArg Except.ok (Delay.ext ?_)
  rw [Delay.nanos_add_scale, Delay.nanos_clamp, Nat.min_comm]

theorem delay_geometric (initial : Delay) (ratio n : Count) :
    (geometric initial ratio).delay n
      = .ok (.ofMillis (min (initial.millis * ratio.val ^ n.val) max64)) := by
  refine congrArg (fun ms => Except.ok (Delay.ofMillis ms)) ?_
  rw [powerUpTo_eq (Nat.le_refl _), min_mul_min_of_le (by decide)]
  rfl

/-- The place of a delay in a plan. -/
theorem getElem?_plan {plan : List Delay} (h : plan ≠ []) (n : Nat) :
    ∃ d, plan[min n (plan.length - 1)]? = some d := by
  have hlength := List.length_pos_iff.2 h
  exact ⟨_, List.getElem?_eq_getElem (by omega)⟩

/-- **The delays of strategies are exact.** After any number of re-enqueues: the manual strategy has
no delay to give, and a fixed delay is given as it is. A plan that is not empty gives its delay of
that number, and its last one from there on. Arithmetic delays grow by the step, to the nanosecond,
up to the greatest delay. Geometric delays are the whole milliseconds of the initial delay times
the power of the ratio, up to the greatest number of milliseconds that has 64 bits. -/
theorem delays_are_exact (n : Count) :
    manual.delay n = .error .explicitDelayRequired ∧
    (∀ d, (fixed d).delay n = .ok d) ∧
    (∀ plan, plan ≠ [] → ∃ d, plan[min n.val (plan.length - 1)]? = some d ∧
      (sequential plan).delay n = .ok d) ∧
    (∀ initial step, ∃ d, (arithmetic initial step).delay n = .ok d ∧
      d.nanos = min Delay.greatest.nanos (initial.nanos + n.val * step.nanos)) ∧
    ∀ initial ratio, ∃ d, (geometric initial ratio).delay n = .ok d ∧
      d.nanos = min max64 (initial.nanos / nanosPerMilli * ratio.val ^ n.val) * nanosPerMilli := by
  refine ⟨rfl, fun _ => rfl, fun plan hplan => ?_, fun initial step => ?_, fun initial ratio => ?_⟩
  · obtain ⟨d, hd⟩ := getElem?_plan hplan n.val
    refine ⟨d, hd, ?_⟩
    rw [delay, hd, Option.getD_some]
  · exact ⟨_, delay_arithmetic initial step n, Nat.min_comm _ _⟩
  · refine ⟨_, delay_geometric initial ratio n, ?_⟩
    rw [Delay.nanos_ofMillis (Nat.min_le_right _ _), Nat.min_comm]
    rfl

/-! ### Growth -/

/-- The delay after one more re-enqueue is longer, unless it was the longest one before. -/
def GrowsAt (s : Strategy) (longest : Delay) (n : Count) : Prop :=
  ∃ d d', s.delay n = .ok d ∧ s.delay n.next = .ok d' ∧ (d < d' ∨ d = longest)

variable {n : Count}

/-- The number that follows one of 32 bits other than the greatest. -/
theorem val_next_of_lt (h : n.val < max32) : n.next.val = n.val + 1 :=
  Nat.min_eq_left h

theorem growsAt_arithmetic (initial : Delay) {step : Delay} (hstep : 0 < step.nanos)
    (hn : n.val < max32) : (arithmetic initial step).GrowsAt .greatest n := by
  refine ⟨_, _, delay_arithmetic initial step n, delay_arithmetic initial step n.next, ?_⟩
  rw [val_next_of_lt hn, Nat.succ_mul, Delay.lt_def, Delay.nanos_clamp, Delay.nanos_clamp]
  rcases Nat.lt_or_ge (initial.nanos + n.val * step.nanos) Delay.limit with h | h
  · exact .inl (by omega)
  · exact .inr (Delay.ext (Nat.min_eq_right h))

theorem growsAt_geometric {initial : Delay} {ratio : Count} (hinitial : 0 < initial.millis)
    (hratio : 1 < ratio.val) (hn : n.val < max32) :
    (geometric initial ratio).GrowsAt (.ofMillis max64) n := by
  refine ⟨_, _, delay_geometric initial ratio n, delay_geometric initial ratio n.next, ?_⟩
  rw [val_next_of_lt hn]
  have hpower : ratio.val ^ n.val < ratio.val ^ (n.val + 1) :=
    Nat.pow_lt_pow_right hratio (Nat.lt_succ_self _)
  have hgrows := Nat.mul_lt_mul_of_pos_left hpower hinitial
  rcases Nat.lt_or_ge (initial.millis * ratio.val ^ n.val) max64 with h | h
  · refine .inl ?_
    rw [Delay.lt_def, Delay.nanos_ofMillis (Nat.min_le_right _ _),
      Delay.nanos_ofMillis (Nat.min_le_right _ _)]
    exact Nat.mul_lt_mul_of_pos_right (by omega) (by decide)
  · exact .inr (congrArg Delay.ofMillis (Nat.min_eq_right h))

/-- An initial delay without a whole millisecond is no delay at all. -/
theorem delay_of_lt_milli {initial : Delay} (h : initial.nanos < nanosPerMilli) (ratio n : Count) :
    (geometric initial ratio).delay n = .ok .zero := by
  have hmillis : initial.millis = 0 := Nat.div_eq_of_lt h
  rw [delay_geometric, hmillis, Nat.zero_mul]
  rfl

/-- Such delays stay the same. -/
theorem not_growsAt_of_lt_milli {initial : Delay} (h : initial.nanos < nanosPerMilli)
    (ratio n : Count) : ¬ (geometric initial ratio).GrowsAt (.ofMillis max64) n := by
  rintro ⟨d, d', hd, hd', hgrows⟩
  rw [delay_of_lt_milli h] at hd hd'
  cases hd
  cases hd'
  exact absurd hgrows (by decide)

/-- **Growing delays grow**, up to the longest one, with every re-enqueue below the greatest number.
Arithmetic delays do so for every step that takes any time. Geometric delays with a ratio of two or
more do so exactly if the initial delay has a whole millisecond. -/
theorem growing_delays_grow (hn : n.val < max32) :
    (∀ initial step, 0 < step.nanos → (arithmetic initial step).GrowsAt .greatest n) ∧
    ∀ initial ratio, 1 < ratio.val →
      ((geometric initial ratio).GrowsAt (.ofMillis max64) n ↔ nanosPerMilli ≤ initial.nanos) := by
  refine ⟨fun initial step hstep => growsAt_arithmetic initial hstep hn,
    fun initial ratio hratio => ⟨fun hgrows => ?_, fun hinitial => ?_⟩⟩
  · refine Nat.le_of_not_lt fun hlt => ?_
    exact not_growsAt_of_lt_milli hlt ratio n hgrows
  · exact growsAt_geometric (Delay.millis_pos_iff.2 hinitial) hratio hn

/-- Ten seconds grow by five seconds, and one second doubles. -/
theorem seconds_grow :
    (arithmetic (.ofSeconds 10) (.ofSeconds 5)).GrowsAt .greatest (.clamp 3) ∧
      (geometric (.ofSeconds 1) (.clamp 2)).GrowsAt (.ofMillis max64) (.clamp 3) := by
  have hgrow := growing_delays_grow (n := .clamp 3) (by decide)
  exact ⟨hgrow.1 _ _ (by decide), (hgrow.2 _ _ (by decide)).2 (by decide)⟩

/-- A nanosecond is not doubled. -/
theorem nanosecond_does_not_grow : 0 < (Delay.clamp 1).nanos ∧ 1 < (Count.clamp 2).val ∧
    Count.zero.val < max32 ∧
    ¬ (geometric (.clamp 1) (.clamp 2)).GrowsAt (.ofMillis max64) .zero :=
  ⟨by decide, by decide, by decide, not_growsAt_of_lt_milli (by decide) _ _⟩

end Strategy

end DurableQueue
