import DurableQueue.Store.Call

/-!
# Transactions of the in-memory store

A transaction is open until it is committed or rolled back, and refuses every call after that.
What it writes is seen at once, and a rollback takes nothing back.

* `Transaction.pick`, `enqueue`, `delete` and `reenqueue` are the calls on rows;
* `Transaction.complete` is commit and rollback alike;
* `StoreCall.answerIn` is the answer to a call in a transaction, and `answerIn_opened` says that an
  open transaction answers as the store does.
-/

namespace DurableQueue

/-- A transaction, open or completed. -/
structure Transaction where
  completed : Bool := false
  deriving DecidableEq, Repr

namespace Transaction

/-- An open transaction. -/
def opened : Transaction := {}

/-- Make a call on an open transaction. -/
def whenOpen {α : Type} (t : Transaction) (s : Store)
    (call : Store → Except StoreError α × Store) : Except StoreError α × Store :=
  if t.completed then (.error .transactionCompleted, s) else call s

/-- A call that succeeds was made on an open transaction. -/
theorem open_of_whenOpen {α : Type} {t : Transaction} {s : Store}
    {call : Store → Except StoreError α × Store} {a : α} (h : (t.whenOpen s call).1 = .ok a) :
    t.completed = false := by
  unfold whenOpen at h
  split at h
  · cases h
  next hopen => exact Bool.eq_false_iff.2 hopen

/-- Claim a task. -/
def pick (t : Transaction) (now : Instant) (l : Location) (failure : FailureSettings) (s : Store) :
    Except StoreError (Option TaskRecord) × Store :=
  t.whenOpen s fun s => let (r, s) := s.pick now l failure; (.ok r, s)

/-- Add a task. -/
def enqueue (t : Transaction) (now : Instant) (l : Location) (task : NewTask) (s : Store) :
    Except StoreError Int × Store :=
  t.whenOpen s fun s => s.enqueue now l task

/-- Remove a task. -/
def delete (t : Transaction) (l : Location) (id : Int) (s : Store) :
    Except StoreError Bool × Store :=
  t.whenOpen s fun s => let (b, s) := s.delete l id; (.ok b, s)

/-- Put a task back. -/
def reenqueue (t : Transaction) (now : Instant) (l : Location) (id : Int) (delay : Delay)
    (s : Store) : Except StoreError Bool × Store :=
  t.whenOpen s fun s => let (b, s) := s.reenqueue now l id delay; (.ok b, s)

/-- Commit or roll back. -/
def complete (t : Transaction) : Except StoreError Unit × Transaction :=
  if t.completed then (.error .transactionCompleted, t) else (.ok (), ⟨true⟩)

end Transaction

namespace StoreCall

/-- The answer of the in-memory store to a call in a transaction. -/
def answerIn (now : Instant) (l : Location) :
    (c : StoreCall) → Transaction → Store → c.Answer × Transaction × Store
  | .begin, _, s => (.ok (), .opened, s)
  | .pick failure, t, s => let (r, s) := t.pick now l failure s; (r, t, s)
  | .enqueue task, t, s => let (r, s) := t.enqueue now l task s; (r, t, s)
  | .delete id, t, s => let (r, s) := t.delete l id s; (r, t, s)
  | .reenqueue id delay, t, s => let (r, s) := t.reenqueue now l id delay s; (r, t, s)
  | .commit, t, s => let (r, t) := t.complete; (r, t, s)
  | .release, t, s => ((), t, s)

/-- In an open transaction a call is answered as the store answers it. -/
theorem answerIn_opened (now : Instant) (l : Location) (c : StoreCall) (s : Store) :
    ((c.answerIn now l .opened s).1, (c.answerIn now l .opened s).2.2) = c.answer now l s := by
  cases c <;> rfl

end StoreCall

end DurableQueue
