import DurableQueue.Program
import DurableQueue.Store.Memory

/-!
# Calls of a store

What a worker or a producer asks of a store within a transaction, one call after the other, and how
the in-memory store answers.

* `StoreCall` lists the calls and `StoreCalls` is their signature;
* `StoreCall.answer` is the answer of the in-memory store, whose transactions change nothing by
  themselves.
-/

namespace DurableQueue

/-- A call of a store. All but `begin` are made within an open transaction, and `release` gives it
up without completing it. -/
inductive StoreCall
  | begin
  | pick (failure : FailureSettings)
  | enqueue (task : NewTask)
  | delete (id : Int)
  | reenqueue (id : Int) (delay : Delay)
  | commit
  | release
  deriving DecidableEq, Repr

namespace StoreCall

/-- The type of the answer to a call. -/
@[reducible] def Answer : StoreCall → Type
  | .begin => Except StoreError Unit
  | .pick _ => Except StoreError (Option TaskRecord)
  | .enqueue _ => Except StoreError Int
  | .delete _ => Except StoreError Bool
  | .reenqueue _ _ => Except StoreError Bool
  | .commit => Except StoreError Unit
  | .release => Unit

/-- The answer of the in-memory store to a call at a queue. -/
def answer (now : Instant) (l : Location) : (c : StoreCall) → Store → c.Answer × Store
  | .begin, s => (.ok (), s)
  | .pick failure, s => let (r, s) := s.pick now l failure; (.ok r, s)
  | .enqueue task, s => s.enqueue now l task
  | .delete id, s => let (b, s) := s.delete l id; (.ok b, s)
  | .reenqueue id delay, s => let (b, s) := s.reenqueue now l id delay; (.ok b, s)
  | .commit, s => (.ok (), s)
  | .release, s => ((), s)

/-- The answer to a call that fails; giving a transaction up never does. -/
def failure (e : StoreError) : (c : StoreCall) → c.Answer
  | .begin => .error e
  | .pick _ => .error e
  | .enqueue _ => .error e
  | .delete _ => .error e
  | .reenqueue _ _ => .error e
  | .commit => .error e
  | .release => ()

end StoreCall

/-- The requests of programs that call a store. -/
@[reducible] def StoreCalls : Signature := ⟨StoreCall, StoreCall.Answer⟩

end DurableQueue
