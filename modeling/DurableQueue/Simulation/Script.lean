import DurableQueue.Worker.Iteration

/-!
# Scripts

A script lists what a collaborator does at its first call, its second one and so on; the last entry
is repeated.

* `Script.next` gives the entry for a call, and `Script.used` counts the calls;
* `ConsumerStep` is an entry for a consumer, and `RunnerStep` one for a whole iteration.
-/

namespace DurableQueue.Simulation

/-- The entries of a script, and the number of calls so far. -/
structure Script (α : Type) where
  steps : List α
  used : Nat := 0

/-- The entry for the next call. -/
def Script.next {α : Type} [Inhabited α] (s : Script α) : α × Script α :=
  ((s.steps[min s.used (s.steps.length - 1)]?).getD default, { s with used := s.used + 1 })

/-- What a consumer does with a task: it sleeps, may empty the stores, and then answers. -/
structure ConsumerStep where
  sleepMillis : Nat := 0
  clear : Bool := false
  outcome : ConsumerOutcome := .result .finish

instance : Inhabited ConsumerStep := ⟨{}⟩

/-- What an iteration does: it sleeps and then ends. -/
structure RunnerStep where
  sleepMillis : Nat := 0
  outcome : RunOutcome := .ok .skipped

instance : Inhabited RunnerStep := ⟨{}⟩

end DurableQueue.Simulation
