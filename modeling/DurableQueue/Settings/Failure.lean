import DurableQueue.Count
import DurableQueue.Settings.Group
import DurableQueue.Time.DelayText

/-!
# Failure settings

How far a picked task is moved into the future, in case its processing never comes to an end.

* `FailureRetryType.multiplier` is the factor by which the interval grows with the attempts;
* `FailureSettings.delayForAttempt` is the delay after a number of earlier attempts.
-/

namespace DurableQueue

/-- How the delay grows from attempt to attempt. -/
inductive FailureRetryType
  | geometric
  | arithmetic
  | linear
  deriving DecidableEq, Repr

namespace FailureRetryType

/-- The name of a type in configuration. -/
def name : FailureRetryType → String
  | .geometric => "geometric"
  | .arithmetic => "arithmetic"
  | .linear => "linear"

/-- The name of a type in differences. -/
def label : FailureRetryType → String
  | .geometric => "GeometricBackoff"
  | .arithmetic => "ArithmeticBackoff"
  | .linear => "LinearBackoff"

/-- All types. -/
def all : List FailureRetryType := [.geometric, .arithmetic, .linear]

/-- Read the name of a type. -/
def parse (s : String) : Except String FailureRetryType :=
  match all.find? (·.name == s) with
  | some t => .ok t
  | none => .error ("unknown retry type: " ++ s)

/-- The factor of the interval after `a` attempts, a number of 32 bits: one, twice `a` and one more,
or the power `2 ^ a`. Every step of this stops at the greatest number. -/
def multiplier : FailureRetryType → Nat → Nat
  | .linear, _ => 1
  | .arithmetic, a => min (min (2 * a) Decimal.max32 + 1) Decimal.max32
  | .geometric, a => if a < 32 then Nat.pow 2 a else Decimal.max32

end FailureRetryType

/-- The growth of the delay and the interval it starts from. -/
structure FailureSettings where
  retryType : FailureRetryType := .geometric
  retryInterval : Delay := Delay.ofSeconds 60
  deriving DecidableEq, Repr

namespace FailureSettings

instance : Inhabited FailureSettings := ⟨{}⟩

/-- The delay of a task that was attempted a number of times before. -/
def delayForAttempt (s : FailureSettings) (attempts : Count) : Delay :=
  s.retryInterval.scale (s.retryType.multiplier attempts.val)

/-- The fields in which two values differ, in the order of the fields. -/
def differences (old new : FailureSettings) : List String :=
  [fieldDifference "retry_type" FailureRetryType.label old.retryType new.retryType,
   fieldDifference "retry_interval" Delay.brief old.retryInterval new.retryInterval].filterMap id

instance : SettingGroup FailureSettings where
  groupName := "failure"
  differences := differences

end FailureSettings

end DurableQueue
