import DurableQueue.Proofs.Store.Sending
import DurableQueue.Store.Transaction

/-!
# Completed transactions

A transaction is completed by a commit or a rollback, whether that succeeds or not. From then on it
refuses all calls and does nothing for them.

* `TransactionCall` lists the calls of a transaction;
* `Layer` is a layer of data access, with the two laws of completion: commits and rollbacks complete
  a transaction, and a completed one refuses. `Layer.refuses_after` draws the conclusion for whole
  sequences of calls;
* `memory` is the layer of the in-memory store, and `database` that of a database;
* `completed_transactions_refuse` is the main statement. In memory every call is refused because
  the transaction is completed. A session of a database says so too, unless it is to add a row with
  an extra column that is not declared: then it names that column
  (`undeclared_column_is_named_first`).
-/

namespace DurableQueue

open Identifier

/-- A call of a transaction. -/
inductive TransactionCall
  | pick (l : Location) (failure : FailureSettings)
  | enqueue (l : Location) (task : NewTask)
  | delete (l : Location) (id : Int)
  | reenqueue (l : Location) (id : Int) (delay : Delay)
  | commit
  | rollback
  deriving DecidableEq

namespace TransactionCall

/-- The type of the value that a call returns. -/
@[reducible] def Value : TransactionCall → Type
  | .pick _ _ => Option TaskRecord
  | .enqueue _ _ => Int
  | .delete _ _ => Bool
  | .reenqueue _ _ _ => Bool
  | .commit => Unit
  | .rollback => Unit

/-- A call that completes the transaction. -/
def Completes (call : TransactionCall) : Prop := call = .commit ∨ call = .rollback

/-- A call that is to add a row with an extra column that is not declared. -/
def Undeclared (schema : Schema) (call : TransactionCall) (column : String) : Prop :=
  ∃ l task, call = .enqueue l task ∧ ∃ key ∈ task.extra.keys,
    column = columnName key ∧ column ∉ schema.extra

end TransactionCall

/-! ### Layers of data access -/

/-- A layer of data access: how a transaction `τ` answers calls on rows, which are kept in a state
`σ`. -/
structure Layer (τ σ : Type) where
  make : τ → (call : TransactionCall) → σ → Except StoreError call.Value × τ × σ
  isCompleted : τ → Bool
  /-- The error of a call of a completed transaction. -/
  refusal : τ → TransactionCall → StoreError
  completes : ∀ t call s, call.Completes → isCompleted (make t call s).2.1 = true
  refuses : ∀ t call s, isCompleted t = true → make t call s = (.error (refusal t call), t, s)

namespace Layer

variable {τ σ : Type} (L : Layer τ σ) {t : τ}

/-- A transaction after several calls. Others may change the rows in between, so each call finds a
state of its own. -/
def after (t : τ) (calls : List (TransactionCall × σ)) : τ :=
  calls.foldl (fun t (call, s) => (L.make t call s).2.1) t

/-- A completed transaction stays as it is. -/
theorem after_of_completed (h : L.isCompleted t = true) (calls : List (TransactionCall × σ)) :
    L.after t calls = t := by
  induction calls with
  | nil => rfl
  | cons e calls ih =>
    obtain ⟨call, s⟩ := e
    show L.after (L.make t call s).2.1 calls = t
    rw [L.refuses t call s h, ih]

/-- A transaction is completed after a commit or a rollback. -/
theorem completed_after {calls : List (TransactionCall × σ)} (h : ∃ e ∈ calls, e.1.Completes) :
    L.isCompleted (L.after t calls) = true := by
  induction calls generalizing t with
  | nil =>
    obtain ⟨e, he, -⟩ := h
    cases he
  | cons e calls ih =>
    obtain ⟨call, s⟩ := e
    show L.isCompleted (L.after (L.make t call s).2.1 calls) = true
    by_cases hcall : call.Completes
    · have hdone := L.completes t call s hcall
      rw [L.after_of_completed hdone]
      exact hdone
    · obtain ⟨e, he, hcompletes⟩ := h
      rcases List.mem_cons.1 he with rfl | he
      · exact absurd hcompletes hcall
      · exact ih ⟨e, he, hcompletes⟩

/-- After a commit or a rollback a call is refused, and leaves the transaction and the rows as they
are. -/
theorem refuses_after {calls : List (TransactionCall × σ)} (h : ∃ e ∈ calls, e.1.Completes)
    (call : TransactionCall) (s : σ) :
    L.make (L.after t calls) call s
      = (.error (L.refusal (L.after t calls) call), L.after t calls, s) :=
  L.refuses _ call s (L.completed_after h)

end Layer

/-! ### In memory -/

namespace Transaction

/-- Make a call at a time. -/
def make (t : Transaction) :
    (call : TransactionCall) → Instant × Store →
      Except StoreError call.Value × Transaction × Instant × Store
  | .pick l failure, (now, s) => let (r, s) := t.pick now l failure s; (r, t, now, s)
  | .enqueue l task, (now, s) => let (r, s) := t.enqueue now l task s; (r, t, now, s)
  | .delete l id, (now, s) => let (r, s) := t.delete l id s; (r, t, now, s)
  | .reenqueue l id delay, (now, s) => let (r, s) := t.reenqueue now l id delay s; (r, t, now, s)
  | .commit, x => let (r, t) := t.complete; (r, t, x)
  | .rollback, x => let (r, t) := t.complete; (r, t, x)

end Transaction

/-- The in-memory store. A call finds the rows and a time. -/
def memory : Layer Transaction (Instant × Store) where
  make := Transaction.make
  isCompleted t := t.completed
  refusal _ _ := .transactionCompleted
  completes := by
    rintro ⟨completed⟩ call x (rfl | rfl) <;> cases completed <;> rfl
  refuses := by
    rintro ⟨completed⟩ call x rfl
    cases call <;> rfl

/-! ### On a database -/

/-- Extra columns that cannot be resolved include one that is not declared, and the error names
it. -/
theorem Schema.undeclared_of_resolveExtra {s : Schema} {extra : Dict String} {e : StoreError}
    (h : s.resolveExtra extra = .error e) :
    ∃ key ∈ extra.keys, columnName key ∉ s.extra ∧ e = .unknownColumn (columnName key) := by
  simp only [resolveExtra, Dict.keys] at h ⊢
  generalize extra.entries = entries at h ⊢
  induction entries with
  | nil => cases h
  | cons entry entries ih =>
    rw [List.mapM_cons] at h
    by_cases hdeclared : columnName entry.1 ∈ s.extra
    · simp only [resolveColumn, List.contains_iff_mem.2 hdeclared, if_true, bind, Except.bind] at h
      split at h
      next error hrest =>
        cases h
        obtain ⟨key, hkey, hundeclared⟩ := ih hrest
        exact ⟨key, List.mem_cons_of_mem _ hkey, hundeclared⟩
      next => cases h
    · simp only [resolveColumn, List.contains_iff_mem, hdeclared, if_false, bind, Except.bind] at h
      cases h
      exact ⟨entry.1, List.mem_cons_self, hdeclared, rfl⟩

namespace Sql.Session

variable {σ : Type}

/-- Make a call. -/
def make (db : Database σ) (c : Session) :
    (call : TransactionCall) → σ → Except StoreError call.Value × Session × σ
  | .pick l failure, s => let (r, s) := c.pick db l failure s; (r, c, s)
  | .enqueue l task, s => let (r, s) := c.enqueue db l task s; (r, c, s)
  | .delete l id, s => let (r, s) := c.delete db l id s; (r, c, s)
  | .reenqueue l id delay, s => let (r, s) := c.reenqueue db l id delay s; (r, c, s)
  | .commit, s => c.commit db s
  | .rollback, s => c.rollback db s

/-- The error of a call of a completed transaction: extra columns are looked at first. -/
def refusal (c : Session) : TransactionCall → StoreError
  | .enqueue _ task =>
    match c.schema.resolveExtra task.extra with
    | .error e => e
    | .ok _ => .transactionCompleted
  | _ => .transactionCompleted

theorem completed_complete (c : Session) (db : Database σ) (words : String) (s : σ) :
    (c.complete db words s).2.1.completed = true := by
  unfold complete
  split
  · assumption
  · split <;> rfl

/-- The error is that the transaction is completed, or it names a column that is not declared. -/
theorem refusal_cases (c : Session) (call : TransactionCall) :
    (c.refusal call = .transactionCompleted ∧ ∀ column, ¬ call.Undeclared c.schema column) ∨
      ∃ column, call.Undeclared c.schema column ∧ c.refusal call = .unknownColumn column := by
  cases call with
  | enqueue l task =>
    rw [refusal]
    split
    next e hcolumns =>
      obtain ⟨key, hkey, hundeclared, rfl⟩ := Schema.undeclared_of_resolveExtra hcolumns
      exact .inr ⟨_, ⟨l, task, rfl, key, hkey, rfl, hundeclared⟩, rfl⟩
    next columns hcolumns =>
      refine .inl ⟨rfl, ?_⟩
      rintro _ ⟨_, _, ⟨⟩, key, hkey, rfl, hundeclared⟩
      exact hundeclared ((Schema.resolveExtra_eq_ok_iff.1 hcolumns).1 key hkey)
  | _ =>
    refine .inl ⟨rfl, ?_⟩
    rintro _ ⟨_, _, ⟨⟩, _⟩

theorem schema_make (db : Database σ) (c : Session) (call : TransactionCall) (s : σ) :
    (c.make db call s).2.1.schema = c.schema := by
  have hcomplete (words : String) : (c.complete db words s).2.1.schema = c.schema := by
    unfold complete
    split
    · rfl
    · split <;> rfl
  cases call with
  | commit => exact hcomplete "COMMIT"
  | rollback => exact hcomplete "ROLLBACK"
  | _ => rfl

end Sql.Session

open Sql in
/-- A database, for the transactions of its sessions. -/
def database {σ : Type} (db : Database σ) : Layer Session σ where
  make := Session.make db
  isCompleted c := c.completed
  refusal := Session.refusal
  completes := by
    rintro c call s (rfl | rfl)
    · exact c.completed_complete db "COMMIT" s
    · exact c.completed_complete db "ROLLBACK" s
  refuses := by
    intro c call s h
    cases call with
    | enqueue l task =>
      cases hcolumns : c.schema.resolveExtra task.extra <;>
        simp [Session.make, Session.enqueue, Session.refusal, hcolumns, h]
    | _ =>
      simp [Session.make, Session.pick, Session.delete, Session.reenqueue, Session.commit,
        Session.rollback, Session.complete, Session.refusal, h]

open Sql in
theorem schema_after {σ : Type} (db : Database σ) (c : Session)
    (calls : List (TransactionCall × σ)) : ((database db).after c calls).schema = c.schema := by
  induction calls generalizing c with
  | nil => rfl
  | cons e calls ih =>
    obtain ⟨call, s⟩ := e
    exact (ih _).trans (Session.schema_make db c call s)

open Sql in
/-- **Completed transactions refuse.** Once a transaction has been asked to commit or to roll back,
whatever else it was asked before and after, it refuses every call. In memory the error is that the
transaction is completed, and rows and identifiers stay as they are. On a database nothing is sent,
nothing changes, and the error is the same, but for a call that is to add a row with an extra column
that is not declared: then the error names such a column. -/
theorem completed_transactions_refuse (call : TransactionCall) :
    (∀ (t : Transaction) (calls : List (TransactionCall × Instant × Store)),
      (∃ e ∈ calls, e.1.Completes) → ∀ (now : Instant) (s : Store),
        memory.make (memory.after t calls) call (now, s)
          = (.error .transactionCompleted, memory.after t calls, now, s)) ∧
    ∀ {σ : Type} (db : Database σ) (c : Session)
      (calls : List (TransactionCall × List Statement × σ)),
      (∃ e ∈ calls, e.1.Completes) → ∀ (sent : List Statement) (s : σ), ∃ e,
        (database db.recording).make ((database db.recording).after c calls) call (sent, s)
          = (.error e, (database db.recording).after c calls, sent, s) ∧
        ((∀ column, ¬ call.Undeclared c.schema column) → e = .transactionCompleted) ∧
        ∀ column, call.Undeclared c.schema column →
          ∃ named, call.Undeclared c.schema named ∧ e = .unknownColumn named := by
  refine ⟨fun t calls hdone now s => memory.refuses_after hdone call (now, s), ?_⟩
  intro σ db c calls hdone sent s
  have hrefuses := (database db.recording).refuses_after (t := c) hdone call (sent, s)
  refine ⟨_, hrefuses, ?_⟩
  rw [← schema_after db.recording c calls]
  rcases Session.refusal_cases ((database db.recording).after c calls) call with
    ⟨hcompleted, hdeclared⟩ | ⟨named, hnamed, hrefusal⟩
  · exact ⟨fun _ => hcompleted, fun column hcolumn => absurd hcolumn (hdeclared column)⟩
  · exact ⟨fun hdeclared => absurd hnamed (hdeclared named), fun _ _ => ⟨named, hnamed, hrefusal⟩⟩

namespace Settled

open Sql

/-- The place of the calls below. -/
def orders : Location := ⟨"orders", "tasks", none⟩

/-- A task with a value for the column `x`. -/
def stray : NewTask where
  extra := .ofList [("x", "1")]

/-- A store without extra columns, at a time. -/
def bare : Instant × Store := (.epoch, .empty {})

/-- A session of tables without extra columns, with an open transaction. -/
def plain : Session where
  schema := {}
  completed := false

end Settled

open Settled Sql in
/-- A transaction that has been committed does not roll back, in memory or on a database, and not
even if the database has failed to commit it. -/
theorem committed_does_not_roll_back :
    (memory.make (memory.after .opened [(.enqueue orders {}, bare), (.commit, bare)]) .rollback
      bare).1 = .error .transactionCompleted ∧
    ((database Session.down.recording).make
      ((database Session.down.recording).after plain [(.commit, ([], 0))]) .rollback ([], 1))
        = (.error .transactionCompleted, { plain with completed := true, unsettled := true },
          [], 1) := by
  obtain ⟨hmemory, hdatabase⟩ := completed_transactions_refuse .rollback
  have hcalls : ∃ e ∈ [(TransactionCall.enqueue orders {}, bare), (.commit, bare)],
      e.1.Completes := ⟨(.commit, bare), by simp, .inl rfl⟩
  have hcommit : ∃ e ∈ [(TransactionCall.commit, (([], 0) : List Statement × Nat))],
      e.1.Completes := ⟨(.commit, ([], 0)), by simp, .inl rfl⟩
  have hdeclared (column : String) : ¬ TransactionCall.rollback.Undeclared plain.schema column := by
    rintro ⟨_, _, ⟨⟩, _⟩
  obtain ⟨e, hrefused, hcompleted, -⟩ :=
    hdatabase Session.down plain [(.commit, ([], 0))] hcommit [] 1
  refine ⟨congrArg Prod.fst (hmemory .opened _ hcalls .epoch (.empty {})), ?_⟩
  rw [hrefused, hcompleted hdeclared]
  rfl

open Settled Sql in
/-- Undeclared columns are named first: asked for a row with such a column, a session says so
although it has committed, where a transaction in memory says that it is completed. -/
theorem undeclared_column_is_named_first :
    (TransactionCall.enqueue orders stray).Undeclared plain.schema "x" ∧
    (memory.make (memory.after .opened [(.commit, bare)]) (.enqueue orders stray) bare).1
      = .error .transactionCompleted ∧
    ((database Session.idle).make ((database Session.idle).after plain [(.commit, ())])
      (.enqueue orders stray) ()).1 = .error (.unknownColumn "x") := by
  refine ⟨⟨orders, stray, rfl, "x", ?_, ?_, ?_⟩, rfl, ?_⟩ <;> decide +kernel

end DurableQueue
