import DurableQueue.Task.Error
import DurableQueue.Task.Record

/-!
# Events

What workers tell their listeners about tasks and about their own iterations.

* `TaskEvent` and `TaskNotice`: what happens to a task, and to which one;
* `ThreadEvent` and `ThreadNotice`: what happens in an iteration of a worker, and at which queue;
* `TaskNotice.line` and `ThreadNotice.line` describe an event in one line.
-/

namespace DurableQueue

/-- What happens to a task. -/
inductive TaskEvent
  | picked (took : Delay)
  | started
  | executed (result : TaskResult) (took : Delay)
  | crashed (error : ProcessingError)
  | finished
  deriving DecidableEq, Repr

/-- What happens in an iteration of a worker. -/
inductive ThreadEvent
  | started
  | executed (processed : Bool) (took : Delay)
  | crashed (error : ProcessingError)
  | finished
  deriving DecidableEq, Repr

/-- The event that opens a scope or lies at its start; all others close it. -/
def TaskEvent.opens : TaskEvent → Bool
  | .picked _ => true
  | .started => true
  | _ => false

/-- The event that opens an iteration; all others close it. -/
def ThreadEvent.opens : ThreadEvent → Bool
  | .started => true
  | _ => false

/-- An event of a task. -/
structure TaskNotice where
  shard : ShardId
  queue : QueueId
  record : TaskRecord
  event : TaskEvent
  deriving DecidableEq, Repr

/-- An event of a worker. -/
structure ThreadNotice where
  shard : ShardId
  queue : QueueId
  event : ThreadEvent
  deriving DecidableEq, Repr

/-- The word for a task result, with the delay of a task that is put back. -/
def TaskResult.word : TaskResult → String
  | .finish => "finish"
  | .fail => "fail"
  | .reenqueue none => "reenqueue"
  | .reenqueue (some d) => "reenqueue " ++ d.text

/-- The decimal digits of an integer. -/
def decimal (n : Int) : String := String.ofList (Decimal.signed n)

/-- The whole milliseconds of a delay. -/
def millisText (d : Delay) : String := decimal d.millis

/-- The kind and the wording of a processing error. -/
def ProcessingError.line (e : ProcessingError) : String := e.kind ++ ": " ++ e.message

/-- The three counters of a task. -/
def TaskRecord.countersText (r : TaskRecord) : String :=
  r.attempts.text ++ "/" ++ r.reenqueueAttempts.text ++ "/" ++ r.totalAttempts.text

/-- An event of a task in one line. -/
def TaskNotice.line (n : TaskNotice) : String :=
  let at_ := " " ++ n.shard ++ "/" ++ n.queue ++ " id=" ++ decimal n.record.id
  match n.event with
  | .picked took =>
    "picked" ++ at_ ++ " attempts=" ++ n.record.countersText ++ " took=" ++ millisText took
  | .started => "started" ++ at_
  | .executed result took =>
    "executed" ++ at_ ++ " " ++ result.word ++ " took=" ++ millisText took
  | .crashed error => "crashed" ++ at_ ++ " " ++ error.line
  | .finished => "finished" ++ at_

/-- An event of a worker in one line. -/
def ThreadNotice.line (n : ThreadNotice) : String :=
  let at_ := " " ++ n.shard ++ "/" ++ n.queue
  match n.event with
  | .started => "thread started" ++ at_
  | .executed processed took =>
    "thread executed" ++ at_ ++ " processed=" ++ (if processed then "true" else "false")
      ++ " took=" ++ millisText took
  | .crashed error => "thread crashed" ++ at_ ++ " " ++ error.line
  | .finished => "thread finished" ++ at_

end DurableQueue
