import DurableQueue.Simulation.RowClock
import DurableQueue.Store.Transaction

/-!
# A store with named transactions

Calls are made in transactions that go by names. A transaction that was never begun, or that was let
go of, counts as completed.
-/

namespace DurableQueue.Simulation

/-- A store, its clock and its transactions by their names. -/
structure StoreBench where
  store : Store
  clock : RowClock := {}
  transactions : Dict Transaction := .empty

namespace StoreBench

/-- Begin a transaction. -/
def begin (b : StoreBench) (name : String) : StoreBench :=
  { b with transactions := b.transactions.insert name .opened }

/-- Let go of a transaction. -/
def drop (b : StoreBench) (name : String) : StoreBench :=
  { b with transactions := b.transactions.erase name }

/-- The transaction of a name. -/
def transaction (b : StoreBench) (name : String) : Transaction :=
  (b.transactions.get? name).getD ⟨true⟩

/-- Read the clock. -/
def now (b : StoreBench) : Instant × StoreBench :=
  let (now, clock) := b.clock.read
  (now, { b with clock })

/-- Make a call in a transaction. -/
def call (b : StoreBench) (name : String) (l : Location) (c : StoreCall) : c.Answer × StoreBench :=
  let (now, b) := b.now
  let (answer, t, store) := c.answerIn now l (b.transaction name) b.store
  (answer, { b with store, transactions := b.transactions.insert name t })

/-- Undo nothing, but complete a transaction. -/
def rollback (b : StoreBench) (name : String) : Except StoreError Unit × StoreBench :=
  let (r, t) := (b.transaction name).complete
  (r, { b with transactions := b.transactions.insert name t })

end StoreBench

end DurableQueue.Simulation
