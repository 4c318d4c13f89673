import DurableQueue.Count
import DurableQueue.Settings.Group
import DurableQueue.Time.DelayText

/-!
# Re-enqueue settings

How long a task waits that its consumer has put back into the queue. Which of the parameters are
used depends on the type.

* `ReenqueueSettings.validate` checks that the parameters of the type are there;
* `manual`, `fixed`, `sequential`, `arithmetic` and `geometric` build settings with exactly the
  parameters of their type.
-/

namespace DurableQueue

/-- How the delay of a task is found that is put back. -/
inductive ReenqueueRetryType
  | manual
  | fixed
  | sequential
  | arithmetic
  | geometric
  deriving DecidableEq, Repr

namespace ReenqueueRetryType

/-- The name of a type in configuration. -/
def name : ReenqueueRetryType → String
  | .manual => "manual"
  | .fixed => "fixed"
  | .sequential => "sequential"
  | .arithmetic => "arithmetic"
  | .geometric => "geometric"

/-- The name of a type in differences and errors. -/
def label : ReenqueueRetryType → String
  | .manual => "Manual"
  | .fixed => "Fixed"
  | .sequential => "Sequential"
  | .arithmetic => "Arithmetic"
  | .geometric => "Geometric"

/-- All types. -/
def all : List ReenqueueRetryType := [.manual, .fixed, .sequential, .arithmetic, .geometric]

/-- Read the name of a type. -/
def parse (s : String) : Except String ReenqueueRetryType :=
  match all.find? (·.name == s) with
  | some t => .ok t
  | none => .error ("unknown reenqueue retry type: " ++ s)

end ReenqueueRetryType

/-- The type and the parameters of all types, those in use and others. -/
structure ReenqueueSettings where
  retryType : ReenqueueRetryType := .manual
  fixedDelay : Option Delay := none
  sequentialPlan : Option (List Delay) := none
  initialDelay : Option Delay := none
  arithmeticStep : Option Delay := none
  geometricRatio : Option Count := none
  deriving DecidableEq, Repr

namespace ReenqueueSettings

instance : Inhabited ReenqueueSettings := ⟨{}⟩

/-- The consumer gives the delay. -/
def manual : ReenqueueSettings := {}

/-- The same delay every time. -/
def fixed (delay : Delay) : ReenqueueSettings := { retryType := .fixed, fixedDelay := some delay }

/-- The delays of a plan, the last of them again and again. -/
def sequential (plan : List Delay) : ReenqueueSettings :=
  { retryType := .sequential, sequentialPlan := some plan }

/-- A delay that grows by a step. -/
def arithmetic (initial step : Delay) : ReenqueueSettings :=
  { retryType := .arithmetic, initialDelay := some initial, arithmeticStep := some step }

/-- A delay that grows by a factor. -/
def geometric (initial : Delay) (ratio : Count) : ReenqueueSettings :=
  { retryType := .geometric, initialDelay := some initial, geometricRatio := some ratio }

/-- The name of the first missing parameter of the type; a plan without delays is missing. -/
def missing? (s : ReenqueueSettings) : Option String :=
  match s.retryType with
  | .manual => none
  | .fixed => if s.fixedDelay.isNone then some "fixed_delay" else none
  | .sequential =>
    match s.sequentialPlan with
    | some (_ :: _) => none
    | _ => some "sequential_plan"
  | .arithmetic =>
    if s.initialDelay.isNone then some "initial_delay"
    else if s.arithmeticStep.isNone then some "arithmetic_step"
    else none
  | .geometric =>
    if s.initialDelay.isNone then some "initial_delay"
    else if s.geometricRatio.isNone then some "geometric_ratio"
    else none

/-- Check that the parameters of the type are there. -/
def validate (s : ReenqueueSettings) : Except SettingError Unit :=
  match s.missing? with
  | none => .ok ()
  | some field =>
    .error (.invalid "reenqueue"
      (field ++ " is required for " ++ s.retryType.label ++ " retry type"))

/-- The fields in which two values differ, in the order of the fields. -/
def differences (old new : ReenqueueSettings) : List String :=
  let delay := Text.shownOption Delay.brief
  [fieldDifference "retry_type" ReenqueueRetryType.label old.retryType new.retryType,
   fieldDifference "fixed_delay" delay old.fixedDelay new.fixedDelay,
   fieldDifference "sequential_plan" (Text.shownOption (Text.shownList Delay.brief))
     old.sequentialPlan new.sequentialPlan,
   fieldDifference "initial_delay" delay old.initialDelay new.initialDelay,
   fieldDifference "arithmetic_step" delay old.arithmeticStep new.arithmeticStep,
   fieldDifference "geometric_ratio" (Text.shownOption Count.text)
     old.geometricRatio new.geometricRatio].filterMap id

instance : SettingGroup ReenqueueSettings where
  groupName := "reenqueue"
  differences := differences

end ReenqueueSettings

end DurableQueue
