import DurableQueue.Proofs.Program.Monitor
import DurableQueue.Worker.Iteration

/-!
# Whole iterations

An iteration that hands its task off is over before the task was processed. It is whole together
with the job that does so.

* `workOff` runs the jobs that were handed off;
* `IsCourse` says that a list of exchanges is one of a whole iteration, first its own and then
  those of its job.
-/

namespace DurableQueue

open Iteration

variable {π : Type}

/-- The task that is handed off. -/
def TaskCall.handedOff : TaskCall π → List TaskRecord
  | .handOff record => [record]
  | _ => []

/-- Run jobs that were handed off. -/
def workOff (transformer : Transformer π) (shard : ShardId) : List TaskRecord → TaskProgram π Unit
  | [] => .done ()
  | record :: records =>
    (processDetached transformer shard record).bind fun _ => workOff transformer shard records

/-- The tasks that were handed off. -/
def handedOff (es : List (Exchange (TaskCalls π))) : List TaskRecord :=
  es.flatMap fun e => TaskCall.handedOff e.request

/-- The exchanges of a whole iteration: its own, and then those of the jobs that it has handed
off. -/
def IsCourse (transformer : Transformer π) (shard : ShardId) (mode : ProcessingMode)
    (es : List (Exchange (TaskCalls π))) : Prop :=
  ∃ own jobs outcome, es = own ++ jobs ∧
    (iteration transformer shard mode).Leads own (.done outcome) ∧
    (workOff transformer shard (handedOff own)).Leads jobs (.done ())

end DurableQueue
