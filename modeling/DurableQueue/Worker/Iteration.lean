import DurableQueue.Listener.Event
import DurableQueue.Settings.Processing
import DurableQueue.Store.Call
import DurableQueue.Task.Transformer

/-!
# One iteration over a queue

An iteration picks a task, runs the consumer on it and applies the result. Its processing mode says
where the borders of transactions run:

* `separateTransactions`: pick and commit; consume; begin, apply and commit;
* `wrapInTransaction`: pick, consume, apply and commit in one transaction;
* `useExternalExecutor`: pick and commit, then hand the task off; it is processed elsewhere by
  `processDetached`.

Whatever happens to a task once it has been picked is reported to the listeners and does not end
the iteration in an error. An iteration fails only when its transactions do.

* `TaskCall` lists what an iteration asks for, at most one transaction being open at a time;
* `iteration` is the program of an iteration;
* `process` and `processDetached` process a task inside and outside of a transaction.
-/

namespace DurableQueue

/-- How a call of a consumer ends. -/
inductive ConsumerOutcome
  | result (r : TaskResult)
  | error (e : ConsumerError)
  | panic (p : Panic)
  deriving DecidableEq, Repr

/-- A request of an iteration. -/
inductive TaskCall (π : Type)
  /-- The time that has passed, in nanoseconds. -/
  | clock
  | failureSettings
  | reenqueueSettings
  | store (call : StoreCall)
  | consume (task : Task π)
  | notify (record : TaskRecord) (event : TaskEvent)
  | handOff (record : TaskRecord)

/-- The type of the answer to a request of an iteration. -/
@[reducible] def TaskCall.Answer {π : Type} : TaskCall π → Type
  | .clock => Nat
  | .failureSettings => FailureSettings
  | .reenqueueSettings => ReenqueueSettings
  | .store call => call.Answer
  | .consume _ => ConsumerOutcome
  | .notify _ _ => Unit
  | .handOff _ => Unit

/-- The requests of iterations over tasks with a payload of type `π`. -/
@[reducible] def TaskCalls (π : Type) : Signature := ⟨TaskCall π, TaskCall.Answer⟩

/-- The programs of iterations. -/
abbrev TaskProgram (π α : Type) := Program (TaskCalls π) α

/-- What an iteration has done: nothing was ready, or a task was processed or handed off. -/
inductive RunStatus
  | skipped
  | processed
  deriving DecidableEq, Repr

/-- How an iteration ends. -/
abbrev RunOutcome := Except ProcessingError RunStatus

namespace Iteration

variable {π : Type}

/-! ### Single requests -/

/-- Read the clock. -/
def clock : TaskProgram π Nat := .ask (S := TaskCalls π) .clock .done

/-- Read the failure settings that are live. -/
def failureSettings : TaskProgram π FailureSettings :=
  .ask (S := TaskCalls π) .failureSettings .done

/-- Read the re-enqueue settings that are live. -/
def reenqueueSettings : TaskProgram π ReenqueueSettings :=
  .ask (S := TaskCalls π) .reenqueueSettings .done

/-- Call the store. -/
def store (call : StoreCall) : TaskProgram π call.Answer :=
  .ask (S := TaskCalls π) (.store call) .done

/-- Run the consumer. -/
def consume (task : Task π) : TaskProgram π ConsumerOutcome :=
  .ask (S := TaskCalls π) (.consume task) .done

/-- Tell the listeners. -/
def notify (record : TaskRecord) (event : TaskEvent) : TaskProgram π Unit :=
  .ask (S := TaskCalls π) (.notify record event) .done

/-- Hand a task off to the executor of the consumer. -/
def handOff (record : TaskRecord) : TaskProgram π Unit :=
  .ask (S := TaskCalls π) (.handOff record) .done

/-! ### Picking -/

/-- Claim a task and tell the listeners how long that took. -/
def pickTask : TaskProgram π (Except StoreError (Option TaskRecord)) := do
  let started ← clock
  match ← store (.pick (← failureSettings)) with
  | .ok (some record) =>
    notify record (.picked (.clamp ((← clock) - started)))
    return .ok (some record)
  | answer => return answer

/-- Claim a task in a transaction of its own. -/
def pickCommitted : TaskProgram π (Except StoreError (Option TaskRecord)) := do
  match ← store .begin with
  | .error e => return .error e
  | .ok () =>
    match ← pickTask with
    | .error e =>
      store .release
      return .error e
    | .ok record =>
      match ← store .commit with
      | .error e => return .error e
      | .ok () => return .ok record

/-! ### Processing -/

/-- Decode the payload and run the consumer; only a result counts as execution. -/
def execute (transformer : Transformer π) (shard : ShardId) (record : TaskRecord) :
    TaskProgram π (Except ProcessingError TaskResult) := do
  match transformer.toObject record.payload with
  | .error e => return .error (.payload e)
  | .ok payload =>
    notify record .started
    let started ← clock
    match ← consume (.ofRecord shard record payload) with
    | .error e => return .error (.consumer e)
    | .panic p => return .error (.panicked p)
    | .result result =>
      notify record (.executed result (.clamp ((← clock) - started)))
      return .ok result

/-- The delay of a task that is put back without one, by the settings. -/
def plannedDelay (settings : ReenqueueSettings) (record : TaskRecord) :
    Except ProcessingError Delay :=
  match Strategy.ofSettings settings with
  | .error e => .error (.settings e)
  | .ok strategy =>
    match strategy.delay record.reenqueueAttempts with
    | .error e => .error (.retry e)
    | .ok delay => .ok delay

/-- The outcome of a call that changes a row, which may be gone. -/
def ofChange : Except StoreError Bool → Except ProcessingError Unit
  | .ok _ => .ok ()
  | .error e => .error (.store e)

/-- Apply a result in the open transaction: a finished task is removed, a task to be put back is
put back, and a failed one is left alone, since picking it has already hidden it for a while. -/
def applyResult (record : TaskRecord) : TaskResult → TaskProgram π (Except ProcessingError Unit)
  | .finish => do return ofChange (← store (.delete record.id))
  | .reenqueue (some delay) => do return ofChange (← store (.reenqueue record.id delay))
  | .reenqueue none => do
    match plannedDelay (← reenqueueSettings) record with
    | .error e => return .error e
    | .ok delay => return ofChange (← store (.reenqueue record.id delay))
  | .fail => return .ok ()

/-- Apply a result in a transaction of its own, which a failed task does not need. -/
def applyDetached (record : TaskRecord) (result : TaskResult) :
    TaskProgram π (Except ProcessingError Unit) := do
  if result = .fail then return .ok ()
  else
    match ← store .begin with
    | .error e => return .error (.store e)
    | .ok () =>
      match ← applyResult record result with
      | .error e =>
        store .release
        return .error e
      | .ok () =>
        match ← store .commit with
        | .error e => return .error (.store e)
        | .ok () => return .ok ()

/-- Tell the listeners how the processing of a task has ended. -/
def report (record : TaskRecord) : Except ProcessingError Unit → TaskProgram π Unit
  | .ok () => notify record .finished
  | .error e => do
    notify record (.crashed e)
    notify record .finished

/-- Run the consumer on a task and go on with its result. -/
def processWith (transformer : Transformer π) (shard : ShardId) (record : TaskRecord)
    (apply : TaskResult → TaskProgram π (Except ProcessingError Unit)) : TaskProgram π Unit := do
  match ← execute transformer shard record with
  | .error e => report record (.error e)
  | .ok result => report record (← apply result)

/-- Process a task within the open transaction. -/
def process (transformer : Transformer π) (shard : ShardId) (record : TaskRecord) :
    TaskProgram π Unit :=
  processWith transformer shard record (applyResult record)

/-- Process a task with no transaction open while the consumer runs. -/
def processDetached (transformer : Transformer π) (shard : ShardId) (record : TaskRecord) :
    TaskProgram π Unit :=
  processWith transformer shard record (applyDetached record)

/-! ### The modes -/

/-- Pick in one transaction and go on with the task outside of it. -/
def pickThen (go : TaskRecord → TaskProgram π Unit) : TaskProgram π RunOutcome := do
  match ← pickCommitted with
  | .error e => return .error (.store e)
  | .ok none => return .ok .skipped
  | .ok (some record) =>
    go record
    return .ok .processed

/-- The end of an iteration by the commit of its transaction. -/
def commitAs (status : RunStatus) : TaskProgram π RunOutcome := do
  match ← store .commit with
  | .error e => return .error (.store e)
  | .ok () => return .ok status

/-- Pick and process in one transaction. -/
def wrapped (transformer : Transformer π) (shard : ShardId) : TaskProgram π RunOutcome := do
  match ← store .begin with
  | .error e => return .error (.store e)
  | .ok () =>
    match ← pickTask with
    | .error e =>
      store .release
      return .error (.store e)
    | .ok none => commitAs .skipped
    | .ok (some record) =>
      process transformer shard record
      commitAs .processed

end Iteration

open Iteration in
/-- One iteration over a queue of a shard. -/
def iteration {π : Type} (transformer : Transformer π) (shard : ShardId) :
    ProcessingMode → TaskProgram π RunOutcome
  | .separateTransactions => pickThen (processDetached transformer shard)
  | .wrapInTransaction => wrapped transformer shard
  | .useExternalExecutor => pickThen handOff

end DurableQueue
