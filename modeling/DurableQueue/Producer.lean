import DurableQueue.Store.Call
import DurableQueue.Task.Transformer

/-!
# Producers

A producer encodes the payload of a new task, chooses a shard for it and adds a row in a transaction
of its own.

* `Order` is a task as it is given to a producer, and `Route` chooses its shard;
* `produce` is the program of a producer; no transaction is begun for a payload that cannot be
  encoded.
-/

namespace DurableQueue

/-- A task as it is given to a producer. -/
structure Order (π : Type) where
  payload : Option π := none
  delay : Delay := .zero
  extra : Dict String := .empty

/-- The choice of a shard for a task. -/
abbrev Route (π : Type) := Order π → ShardId

namespace Route

variable {π : Type}

/-- Every task goes to one shard. -/
def single (shard : ShardId) : Route π := fun _ => shard

/-- A task goes to the shard whose number is a weight of its payload modulo the number of shards;
a task without a payload weighs nothing. -/
def byWeight (weight : π → Nat) (shards : List ShardId) : Route π := fun order =>
  (shards[(order.payload.elim 0 weight) % shards.length]?).getD ""

end Route

/-- A call of the store of a shard. -/
structure ShardCall where
  shard : ShardId
  call : StoreCall
  deriving DecidableEq, Repr

/-- The requests of programs that call the stores of shards. -/
@[reducible] def ShardCalls : Signature := ⟨ShardCall, fun c => c.call.Answer⟩

namespace Producer

/-- Call the store of a shard. -/
def ask (shard : ShardId) (call : StoreCall) : Program ShardCalls call.Answer :=
  .ask (S := ShardCalls) ⟨shard, call⟩ .done

/-- Add a row in a transaction of its own. -/
def insert (shard : ShardId) (task : NewTask) : Program ShardCalls (Except StoreError Int) := do
  match ← ask shard .begin with
  | .error e => return .error e
  | .ok () =>
    match ← ask shard (.enqueue task) with
    | .error e =>
      ask shard .release
      return .error e
    | .ok id =>
      match ← ask shard .commit with
      | .error e => return .error e
      | .ok () => return .ok id

end Producer

open Producer in
/-- Encode a task, choose a shard and add a row; gives the shard and the identifier. -/
def produce {π : Type} (transformer : Transformer π) (route : Route π) (order : Order π) :
    Program ShardCalls (Except ProducerError (ShardId × Int)) := do
  match transformer.fromObject order.payload with
  | .error e => return .error (.payload e)
  | .ok payload =>
    let shard := route order
    match ← insert shard ⟨payload, order.delay, order.extra⟩ with
    | .error e => return .error (.store e)
    | .ok id => return .ok (shard, id)

end DurableQueue
