import DurableQueue.Program
import DurableQueue.Retry.TimeLimit
import DurableQueue.Service.Registry

/-!
# Waiting for the end of pools

Pools are awaited one after the other within one budget of time. A pool for which no time is left is
not awaited; it counts as ended if it is.

* `AwaitCall` lists what the waiting asks for, and `awaitPools` is its program for several pools;
* `awaitGroups` awaits groups of pools, and gives the groups with a pool that has not ended;
* `Service.awaitTermination` awaits the pools of one queue, and `Service.awaitTerminationAll` those
  of all queues.
-/

namespace DurableQueue

/-- A request of the waiting for pools. -/
inductive AwaitCall (P : Type)
  /-- The time that has passed, in nanoseconds. -/
  | clock
  /-- Wait until a pool has ended, but no longer than a time; says whether it has. -/
  | awaitPool (pool : P) (timeout : Delay)
  | hasEnded (pool : P)

/-- The type of the answer to a request. -/
@[reducible] def AwaitCall.Answer {P : Type} : AwaitCall P → Type
  | .clock => Nat
  | .awaitPool _ _ => Bool
  | .hasEnded _ => Bool

/-- The requests of the waiting for pools. -/
@[reducible] def AwaitCalls (P : Type) : Signature := ⟨AwaitCall P, AwaitCall.Answer⟩

namespace Awaiting

variable {P : Type}

/-- Read the clock. -/
def clock : Program (AwaitCalls P) Nat := .ask (S := AwaitCalls P) .clock .done

/-- Wait until a pool has ended. -/
def awaitPool (pool : P) (timeout : Delay) : Program (AwaitCalls P) Bool :=
  .ask (S := AwaitCalls P) (.awaitPool pool timeout) .done

/-- Whether a pool has ended. -/
def hasEnded (pool : P) : Program (AwaitCalls P) Bool :=
  .ask (S := AwaitCalls P) (.hasEnded pool) .done

/-- Wait for a pool within a budget; says whether it has ended, and what is left. -/
def awaitWithin (limit : TimeLimit) (pool : P) : Program (AwaitCalls P) (Bool × TimeLimit) := do
  match limit.offer with
  | none => return (← hasEnded pool, limit)
  | some timeout =>
    let started ← clock
    let ended ← awaitPool pool timeout
    let limit := limit.spend (.clamp ((← clock) - started))
    if ended then return (true, limit) else return (← hasEnded pool, limit)

/-- Wait for pools one after the other; gives those that have not ended, and what is left. -/
def awaitPools : TimeLimit → List P → Program (AwaitCalls P) (List P × TimeLimit)
  | limit, [] => return ([], limit)
  | limit, p :: ps => do
    let (ended, limit) ← awaitWithin limit p
    let (pending, limit) ← awaitPools limit ps
    return (if ended then pending else p :: pending, limit)

/-- Wait for groups of pools one after the other; gives the groups that have not ended. -/
def awaitGroups {G : Type} (pools : G → List P) :
    TimeLimit → List G → Program (AwaitCalls P) (List G × TimeLimit)
  | limit, [] => return ([], limit)
  | limit, g :: gs => do
    let (running, limit) ← awaitPools limit (pools g)
    let (pending, limit) ← awaitGroups pools limit gs
    return (if running.isEmpty then pending else g :: pending, limit)

end Awaiting

namespace Service

variable {A : Signature} {ω : Type}

/-- The pools of a queue, by queue and shard. -/
def poolsOf (s : Service A ω) (queue : QueueId) : List (QueueId × ShardId) :=
  match s.queues.get? queue with
  | some q => q.pools.keys.map fun shard => (queue, shard)
  | none => []

/-- Wait for the pools of a queue, no longer than a time in all; gives the shards whose pool has not
ended. -/
def awaitTermination (s : Service A ω) (queue : QueueId) (timeout : Delay) :
    Except ServiceError (Program (AwaitCalls (QueueId × ShardId)) (List ShardId)) :=
  match s.queue queue with
  | .error e => .error e
  | .ok _ => .ok do
    let (pending, _) ← Awaiting.awaitPools ⟨timeout⟩ (s.poolsOf queue)
    return pending.map (·.2)

/-- Wait for the pools of all queues, no longer than a time in all; gives the queues with a pool that
has not ended. -/
def awaitTerminationAll (s : Service A ω) (timeout : Delay) :
    Program (AwaitCalls (QueueId × ShardId)) (List QueueId) := do
  let (pending, _) ← Awaiting.awaitGroups s.poolsOf ⟨timeout⟩ s.queues.keys
  return pending

end Service

end DurableQueue
