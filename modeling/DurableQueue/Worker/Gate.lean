import DurableQueue.Time.Delay

/-!
# The gate of a worker

The gate is what others have of a worker: they pause it, wake it and cancel it, and read its state.

* `Gate` with `pause`, `unpause`, `requestWake` and `cancel`;
* `Wait` is a wait in progress, which begins only if the clock can show its end (`Wait.begin`), and
  `Wait.check` says whether it ends now. A request to wake up is used up by every look at it, but
  ends only the waits that allow it.
-/

namespace DurableQueue

/-- Where a worker is. -/
inductive LoopState
  /-- Held back until it is unpaused. -/
  | paused
  /-- In a wait. -/
  | waiting
  /-- In an iteration. -/
  | running
  /-- Cancelled, with nothing left to do. -/
  | stopped
  deriving DecidableEq, Repr

/-- The name of a state. -/
def LoopState.name : LoopState → String
  | .paused => "Paused"
  | .waiting => "Waiting"
  | .running => "Running"
  | .stopped => "Stopped"

/-- Whether a request to wake up ends a wait. -/
inductive WakePolicy
  | allow
  | deny
  deriving DecidableEq, Repr

/-- Why a wait has ended. -/
inductive WaitOutcome
  | elapsed
  | woken
  | cancelled
  deriving DecidableEq, Repr

/-- The name of an outcome. -/
def WaitOutcome.name : WaitOutcome → String
  | .elapsed => "Elapsed"
  | .woken => "Woken"
  | .cancelled => "Cancelled"

/-- What others set and see of a worker. -/
structure Gate where
  paused : Bool
  cancelled : Bool := false
  wakeRequested : Bool := false
  state : LoopState
  deriving DecidableEq, Repr

namespace Gate

/-- The gate of a new worker. -/
def new (paused : Bool) : Gate := { paused, state := if paused then .paused else .running }

instance : Inhabited Gate := ⟨new false⟩

/-- Let no further iteration begin. -/
def pause (g : Gate) : Gate := { g with paused := true }

/-- Let iterations begin again. -/
def unpause (g : Gate) : Gate := { g with paused := false }

/-- Ask for the end of the present or of the next wait. -/
def requestWake (g : Gate) : Gate := { g with wakeRequested := true }

/-- End the worker and every wait of it. -/
def cancel (g : Gate) : Gate := { g with cancelled := true }

/-- Show another state. -/
def become (g : Gate) (state : LoopState) : Gate := { g with state }

end Gate

/-- The first moment that the clock cannot show, in nanoseconds: it counts seconds in 64 bits with
a sign. -/
def clockEnd : Nat := 9223372036854775808000000000

/-- A wait: the moment at which it is over, in nanoseconds, and whether it may end earlier. -/
structure Wait where
  deadline : Nat
  policy : WakePolicy
  deriving DecidableEq, Repr

namespace Wait

/-- The wait for a time that begins now, if the clock can show its end. -/
def begin (now : Nat) (timeout : Delay) (policy : WakePolicy) : Option Wait :=
  if now + timeout.nanos < clockEnd then some ⟨now + timeout.nanos, policy⟩ else none

theorem begin_of_lt {now : Nat} {timeout : Delay} (h : now + timeout.nanos < clockEnd)
    (policy : WakePolicy) : begin now timeout policy = some ⟨now + timeout.nanos, policy⟩ :=
  if_pos h

theorem begin_of_le {now : Nat} {timeout : Delay} (h : clockEnd ≤ now + timeout.nanos)
    (policy : WakePolicy) : begin now timeout policy = none :=
  if_neg (Nat.not_lt.2 h)

theorem eq_of_begin {now : Nat} {timeout : Delay} {policy : WakePolicy} {w : Wait}
    (h : begin now timeout policy = some w) : w = ⟨now + timeout.nanos, policy⟩ := by
  unfold begin at h
  split at h
  · exact (Option.some.inj h).symm
  · cases h

/-- Look whether a wait ends now. A request to wake up counts first, then the cancellation of the
worker, then the time. -/
def check (w : Wait) (now : Nat) (g : Gate) : Option WaitOutcome × Gate :=
  let looked := { g with wakeRequested := false }
  if g.wakeRequested ∧ w.policy = .allow then (some .woken, looked.become .running)
  else if g.cancelled then (some .cancelled, looked)
  else if w.deadline ≤ now then (some .elapsed, looked.become .running)
  else (none, looked)

end Wait

end DurableQueue
