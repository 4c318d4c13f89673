import DurableQueue.Program
import DurableQueue.Settings.Poll
import DurableQueue.Worker.Gate
import DurableQueue.Worker.Iteration

/-!
# One round of a worker

A worker runs an iteration over its queue and then waits, by its outcome:

* after a task for the time between tasks;
* after finding none for the longer time without tasks, which a request to wake up ends early;
* after a failure for the time after a crash.

`PollCall` lists what a round asks for, and `poll` is its program.
-/

namespace DurableQueue

/-- A request of a round of a worker. -/
inductive PollCall
  /-- The time that has passed, in nanoseconds. -/
  | clock
  | pollSettings
  | notify (event : ThreadEvent)
  | runQueue
  | wait (timeout : Delay) (policy : WakePolicy)

/-- The type of the answer to a request of a round. -/
@[reducible] def PollCall.Answer : PollCall → Type
  | .clock => Nat
  | .pollSettings => PollSettings
  | .notify _ => Unit
  | .runQueue => RunOutcome
  | .wait _ _ => WaitOutcome

/-- The requests of rounds. -/
@[reducible] def PollCalls : Signature := ⟨PollCall, PollCall.Answer⟩

namespace Poller

/-- Read the clock. -/
def clock : Program PollCalls Nat := .ask (S := PollCalls) .clock .done

/-- Read the poll settings that are live. -/
def pollSettings : Program PollCalls PollSettings := .ask (S := PollCalls) .pollSettings .done

/-- Tell the listeners. -/
def notify (event : ThreadEvent) : Program PollCalls Unit :=
  .ask (S := PollCalls) (.notify event) .done

/-- Run an iteration over the queue. -/
def runQueue : Program PollCalls RunOutcome := .ask (S := PollCalls) .runQueue .done

/-- Wait at the gate. -/
def wait (timeout : Delay) (policy : WakePolicy) : Program PollCalls WaitOutcome :=
  .ask (S := PollCalls) (.wait timeout policy) .done

/-- How long a worker waits after an iteration, and whether it may be woken up. -/
def pause (settings : PollSettings) : RunOutcome → Delay × WakePolicy
  | .ok .processed => (settings.betweenTasks, .deny)
  | .ok .skipped => (settings.noTask, .allow)
  | .error _ => (settings.fatalCrash, .deny)

/-- The event that reports an iteration of some length. -/
def event (took : Delay) : RunOutcome → ThreadEvent
  | .ok status => .executed (status = .processed) took
  | .error e => .crashed e

/-- Run an iteration, report it and wait. -/
def poll : Program PollCalls Unit := do
  notify .started
  let started ← clock
  let outcome ← runQueue
  notify (event (.clamp ((← clock) - started)) outcome)
  let (timeout, policy) := pause (← pollSettings) outcome
  let _ ← wait timeout policy
  notify .finished

end Poller

end DurableQueue
