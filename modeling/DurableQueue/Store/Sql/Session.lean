import DurableQueue.Store.Sql.Query
import DurableQueue.Store.Sql.Reply

/-!
# Transactions of a database

A session is a connection on which one transaction is open at a time. Once a transaction has been
completed, every call is refused and nothing is sent.

* `Database σ` answers statements and may change a state of its own;
* `Session.begin` opens a transaction, `commit` and `rollback` complete it, and `abandon` leaves
  one behind that the next `begin` rolls back;
* `Session.pick`, `enqueue`, `delete` and `reenqueue` are the calls on rows.
-/

namespace DurableQueue.Sql

/-- A database: its answer to a statement, and how the statement changes it. -/
abbrev Database (σ : Type) := Statement → σ → Reply × σ

/-- A connection: the columns of its tables, whether its transaction is completed, and whether
one has to be rolled back before the next can begin. -/
structure Session where
  schema : Schema
  completed : Bool := true
  unsettled : Bool := false

namespace Session

variable {σ : Type}

/-- Send a statement that returns nothing. -/
def send (db : Database σ) (statement : Statement) (s : σ) : Except StoreError Unit × σ :=
  match db statement s with
  | (.failed m, s) => (.error (.database m), s)
  | (.done _ _, s) => (.ok (), s)

/-- Send a statement that returns a row. -/
def fetch (db : Database σ) (statement : Statement) (s : σ) :
    Except StoreError (Option ResultRow) × σ :=
  match db statement s with
  | (.failed m, s) => (.error (.database m), s)
  | (.done row _, s) => (.ok row, s)

/-- Send a statement that changes rows; says whether it has changed one. -/
def change (db : Database σ) (statement : Statement) (s : σ) : Except StoreError Bool × σ :=
  match db statement s with
  | (.failed m, s) => (.error (.database m), s)
  | (.done _ affected, s) => (.ok (0 < affected), s)

/-- Open a transaction. One that is still open or unsettled is rolled back first. -/
def begin (c : Session) (db : Database σ) (s : σ) : Except StoreError Unit × Session × σ :=
  let s := if c.unsettled then (send db (.ofWords "ROLLBACK") s).2 else s
  match send db (.ofWords "BEGIN") s with
  | (.ok (), s) => (.ok (), { c with completed := false, unsettled := true }, s)
  | (.error e, s) => (.error e, { c with completed := true, unsettled := false }, s)

/-- Complete a transaction by a statement; if that fails, it is left unsettled. -/
def complete (c : Session) (db : Database σ) (words : String) (s : σ) :
    Except StoreError Unit × Session × σ :=
  if c.completed then (.error .transactionCompleted, c, s)
  else
    match send db (.ofWords words) s with
    | (.ok (), s) => (.ok (), { c with completed := true, unsettled := false }, s)
    | (.error e, s) => (.error e, { c with completed := true, unsettled := true }, s)

/-- Keep the changes of a transaction. -/
def commit (c : Session) (db : Database σ) (s : σ) : Except StoreError Unit × Session × σ :=
  c.complete db "COMMIT" s

/-- Undo the changes of a transaction. -/
def rollback (c : Session) (db : Database σ) (s : σ) : Except StoreError Unit × Session × σ :=
  c.complete db "ROLLBACK" s

/-- Leave a transaction behind. -/
def abandon (c : Session) : Session := { c with completed := true }

/-- Claim a task. -/
def pick (c : Session) (db : Database σ) (l : Location) (failure : FailureSettings) (s : σ) :
    Except StoreError (Option TaskRecord) × σ :=
  if c.completed then (.error .transactionCompleted, s)
  else
    match fetch db (pickStatement c.schema l failure) s with
    | (.error e, s) => (.error e, s)
    | (.ok none, s) => (.ok none, s)
    | (.ok (some row), s) => ((row.record c.schema).map some, s)

/-- Add a task. Its extra columns are looked up before anything else. -/
def enqueue (c : Session) (db : Database σ) (l : Location) (task : NewTask) (s : σ) :
    Except StoreError Int × σ :=
  match c.schema.resolveExtra task.extra with
  | .error e => (.error e, s)
  | .ok columns =>
    if c.completed then (.error .transactionCompleted, s)
    else
      match fetch db (insertStatement c.schema l task columns) s with
      | (.error e, s) => (.error e, s)
      | (.ok none, s) => (.error (.database "no row was returned"), s)
      | (.ok (some row), s) => (row.identifier, s)

/-- Remove a task. -/
def delete (c : Session) (db : Database σ) (l : Location) (id : Int) (s : σ) :
    Except StoreError Bool × σ :=
  if c.completed then (.error .transactionCompleted, s)
  else change db (deleteStatement c.schema l id) s

/-- Put a task back. -/
def reenqueue (c : Session) (db : Database σ) (l : Location) (id : Int) (delay : Delay) (s : σ) :
    Except StoreError Bool × σ :=
  if c.completed then (.error .transactionCompleted, s)
  else change db (reenqueueStatement c.schema l id delay) s

end Session

end DurableQueue.Sql
