import DurableQueue.Dict
import DurableQueue.Task.Error
import DurableQueue.Text.Identifier

/-!
# The columns of a queue table

* `Schema` names the columns; the `with…` functions change a name or declare an extra column, and
  clean the names they are given;
* `Schema.resolveExtra` finds the columns of extra values, all of which have to be declared;
* `Schema.IsClean` says that all names hold only characters of column names.
-/

namespace DurableQueue

open Identifier

/-- The names of the columns of a queue table. -/
structure Schema where
  queueName : String := "queue_name"
  payload : String := "payload"
  createdAt : String := "created_at"
  nextProcessAt : String := "next_process_at"
  attempt : String := "attempt"
  reenqueueAttempt : String := "reenqueue_attempt"
  totalAttempt : String := "total_attempt"
  extra : List String := []
  deriving DecidableEq, Repr

namespace Schema

instance : Inhabited Schema := ⟨{}⟩

/-- Declare an extra column. -/
def withExtra (s : Schema) (column : String) : Schema :=
  { s with extra := s.extra ++ [columnName column] }

/-- Name the column of the queue. -/
def withQueueName (s : Schema) (column : String) : Schema :=
  { s with queueName := columnName column }

/-- Name the column of the payload. -/
def withPayload (s : Schema) (column : String) : Schema := { s with payload := columnName column }

/-- Name the column of the time at which a row becomes visible. -/
def withNextProcessAt (s : Schema) (column : String) : Schema :=
  { s with nextProcessAt := columnName column }

/-- The column of an extra value, if it is declared. -/
def resolveColumn (s : Schema) (column : String) : Except StoreError String :=
  let name := columnName column
  if s.extra.contains name then .ok name else .error (.unknownColumn name)

/-- The columns of extra values and the values, in the order of the given names; the first name
that is not declared is reported. -/
def resolveExtra (s : Schema) (extra : Dict String) : Except StoreError (List (String × String)) :=
  extra.entries.mapM fun (column, value) =>
    match s.resolveColumn column with
    | .ok name => .ok (name, value)
    | .error e => .error e

/-- All names hold only characters of column names. -/
structure IsClean (s : Schema) : Prop where
  queueName : IsColumnName s.queueName
  payload : IsColumnName s.payload
  createdAt : IsColumnName s.createdAt
  nextProcessAt : IsColumnName s.nextProcessAt
  attempt : IsColumnName s.attempt
  reenqueueAttempt : IsColumnName s.reenqueueAttempt
  totalAttempt : IsColumnName s.totalAttempt
  extra : ∀ column ∈ s.extra, IsColumnName column

end Schema

end DurableQueue
