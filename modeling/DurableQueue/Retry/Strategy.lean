import DurableQueue.Settings.Reenqueue

/-!
# Re-enqueue strategies

The delay of a task that is put back, from the number of times this has happened before.

* `Strategy.ofSettings` builds the strategy of valid settings;
* `Strategy.delay` computes a delay; the manual strategy has none to give;
* `powerUpTo limit b n` is the power `b ^ n` capped at a limit, found without computing a power
  that is far beyond it.
-/

namespace DurableQueue

/-- The power of a base, capped at a limit of at most 128 bits. -/
def powerUpTo (limit b n : Nat) : Nat :=
  if b = 0 then min limit (if n = 0 then 1 else 0)
  else if b = 1 then min limit 1
  else if 128 ≤ n then limit
  else min limit (b.pow n)

theorem powerUpTo_eq {limit : Nat} (h : limit ≤ Decimal.max128) (b n : Nat) :
    powerUpTo limit b n = min limit (b.pow n) := by
  unfold powerUpTo
  split
  next hb =>
    subst hb
    cases n with
    | zero => simp
    | succ n => simp
  next hb =>
    split
    next hb1 => simp [hb1]
    next hb1 =>
      split
      next hn =>
        have h0 : Decimal.max128 < Nat.pow 2 128 := by decide
        have h1 : Nat.pow 2 128 ≤ Nat.pow 2 n := Nat.pow_le_pow_right (by decide) hn
        have h2 : Nat.pow 2 n ≤ Nat.pow b n := Nat.pow_le_pow_left (by omega) n
        exact (Nat.min_eq_left (Nat.le_of_lt (by omega))).symm
      next => rfl

/-- How the delay of a task is found that is put back. -/
inductive Strategy
  | manual
  | fixed (delay : Delay)
  | sequential (plan : List Delay)
  | arithmetic (initial step : Delay)
  | geometric (initial : Delay) (ratio : Count)
  deriving DecidableEq, Repr

/-- The strategy cannot give a delay. -/
inductive RetryError
  | explicitDelayRequired
  deriving DecidableEq, Repr

/-- The wording of a retry error. -/
def RetryError.message : RetryError → String
  | .explicitDelayRequired =>
    "manual re-enqueue strategy requires an explicit delay in the execution result"

namespace Strategy

/-- The strategy of settings that hold the parameters of their type. -/
def ofSettings (s : ReenqueueSettings) : Except SettingError Strategy := do
  s.validate
  return match s.retryType with
    | .manual => .manual
    | .fixed => .fixed (s.fixedDelay.getD .zero)
    | .sequential => .sequential (s.sequentialPlan.getD [])
    | .arithmetic => .arithmetic (s.initialDelay.getD .zero) (s.arithmeticStep.getD .zero)
    | .geometric => .geometric (s.initialDelay.getD .zero) (s.geometricRatio.getD .one)

/-- The delay after a task was put back a number of times. A geometric delay is computed in whole
milliseconds, with steps that stop at the greatest number of 128 bits; a result that takes more than
64 bits gives the greatest number of those. -/
def delay : Strategy → Count → Except RetryError Delay
  | .manual, _ => .error .explicitDelayRequired
  | .fixed d, _ => .ok d
  | .sequential plan, n => .ok (plan[min n.val (plan.length - 1)]?.getD .zero)
  | .arithmetic initial step, n => .ok (initial.add (step.scale n.val))
  | .geometric initial ratio, n =>
    let factor := powerUpTo Decimal.max128 ratio.val n.val
    let millis := min (initial.millis * factor) Decimal.max128
    .ok (Delay.ofMillis (min millis Decimal.max64))

end Strategy

end DurableQueue
