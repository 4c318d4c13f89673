import DurableQueue.Count
import DurableQueue.Dict
import DurableQueue.Settings.Location
import DurableQueue.Time.Instant

/-!
# Tasks

* `TaskRecord` is a task as a store keeps it, with its payload as a text;
* `Task` is what a consumer is given: the shard, the decoded payload and the counters;
* `TaskResult` is what a consumer answers;
* `NewTask` is a task that is to be stored.
-/

namespace DurableQueue

/-- A task as a store keeps it. `attempts` counts the picks since the task was last put back,
`reenqueueAttempts` how often it was put back, and `totalAttempts` all picks. -/
structure TaskRecord where
  id : Int
  payload : Option String
  attempts : Count
  reenqueueAttempts : Count
  totalAttempts : Count
  createdAt : Instant
  nextProcessAt : Instant
  extra : Dict (Option String)
  deriving DecidableEq, Repr

instance : Inhabited TaskRecord :=
  ⟨⟨0, none, .zero, .zero, .zero, .epoch, .epoch, .empty⟩⟩

/-- A task as a consumer is given it. -/
structure Task (π : Type) where
  shard : ShardId
  payload : Option π
  attempts : Count
  reenqueueAttempts : Count
  totalAttempts : Count
  createdAt : Instant
  extra : Dict (Option String)

namespace Task

variable {π : Type}

/-- The task of a record, with its payload decoded. -/
def ofRecord (shard : ShardId) (r : TaskRecord) (payload : Option π) : Task π :=
  ⟨shard, payload, r.attempts, r.reenqueueAttempts, r.totalAttempts, r.createdAt, r.extra⟩

/-- The value of an extra column; nothing when the column is absent or empty. -/
def extra? (t : Task π) (column : String) : Option String := (t.extra.get? column).join

end Task

/-- What a consumer answers. -/
inductive TaskResult
  /-- The task is done. -/
  | finish
  /-- The task is to be put back, after a delay or after the one that the settings give. -/
  | reenqueue (delay : Option Delay)
  /-- The task could not be done; it becomes visible again when its failure delay has passed. -/
  | fail
  deriving DecidableEq, Repr

/-- A task that is to be stored, with its payload encoded. -/
structure NewTask where
  payload : Option String := none
  delay : Delay := .zero
  extra : Dict String := .empty
  deriving DecidableEq, Repr

end DurableQueue
