import DurableQueue.Store.Schema
import DurableQueue.Task.Record

/-!
# Replies of a database

* `Reply` is what a database answers to a statement;
* `ResultRow.record` reads a task from a row, and `ResultRow.identifier` only its identifier. A
  column that is missing or of another type is an error of the database.
-/

namespace DurableQueue.Sql

/-- A value in a row, by its type. -/
inductive Field
  | bigint (n : Int)
  | integer (n : Int)
  | text (s : String)
  | timestamp (t : Instant)
  | null
  deriving DecidableEq, Repr

/-- A row: its columns and their values. -/
structure ResultRow where
  columns : List (String × Field)
  deriving DecidableEq, Repr

/-- An answer to a statement. -/
inductive Reply
  /-- The statement was executed; the first row that it returns, and how many rows it changed. -/
  | done (row : Option ResultRow) (affected : Nat)
  | failed (message : String)
  deriving DecidableEq, Repr

namespace ResultRow

/-- The value of a column; of columns with the same name the last one counts. -/
def field? (r : ResultRow) (column : String) : Option Field := r.columns.reverse.lookup column

/-- A value that was asked for as another type, or that is not there. -/
def unreadable (column : String) : StoreError :=
  .database ("no readable value in column " ++ column)

/-- The value of a column, read by a function. -/
def read {α : Type} (r : ResultRow) (column : String) (as? : Field → Option α) :
    Except StoreError α :=
  match (r.field? column).bind as? with
  | some a => .ok a
  | none => .error (unreadable column)

/-- A number of 64 bits. -/
def asBigint? : Field → Option Int
  | .bigint n => some n
  | _ => none

/-- A number of 32 bits, as a counter; negative numbers count as zero. -/
def asCounter? : Field → Option Count
  | .integer n => some (.clamp n.toNat)
  | _ => none

/-- A text or `null`. -/
def asOptionalText? : Field → Option (Option String)
  | .text s => some (some s)
  | .null => some none
  | _ => none

/-- A point in time. -/
def asInstant? : Field → Option Instant
  | .timestamp t => some t
  | _ => none

/-- The identifier in a row. -/
def identifier (r : ResultRow) : Except StoreError Int := r.read "id" asBigint?

/-- The task in a row, by the columns of a schema. -/
def record (s : Schema) (r : ResultRow) : Except StoreError TaskRecord := do
  let extra ← s.extra.mapM fun c => return (c, ← r.read c asOptionalText?)
  return {
    id := ← r.identifier
    payload := ← r.read s.payload asOptionalText?
    attempts := ← r.read s.attempt asCounter?
    reenqueueAttempts := ← r.read s.reenqueueAttempt asCounter?
    totalAttempts := ← r.read s.totalAttempt asCounter?
    createdAt := ← r.read s.createdAt asInstant?
    nextProcessAt := ← r.read s.nextProcessAt asInstant?
    extra := Dict.ofList extra }

end ResultRow

end DurableQueue.Sql
