import DurableQueue.Settings.Location
import DurableQueue.Store.Schema
import DurableQueue.Store.Sql.Interval
import DurableQueue.Task.Record

/-!
# The statements of a queue

* `pickStatement` claims the visible row that has been visible for longest, without waiting for
  rows that are being claimed by others;
* `insertStatement` adds a row; it is built from `insertEntries`, one entry for each column;
* `deleteStatement` and `reenqueueStatement` remove a row and put it back.

Only the names of the schema and of the location, and the kind of failure delay, shape a text.
Queue, row, payload, delays and extra values are sent as values.
-/

namespace DurableQueue.Sql

/-- Put a separator between groups of parts. -/
def separated (sep : String) : List (List Piece) → List Piece
  | [] => []
  | [p] => p
  | p :: q :: ps => p ++ .words sep :: separated sep (q :: ps)

/-- The columns of a row that a record is read from, without its identifier. -/
def recordColumns (s : Schema) : List String :=
  [s.payload, s.attempt, s.reenqueueAttempt, s.totalAttempt, s.createdAt, s.nextProcessAt]
    ++ s.extra

/-- The statement that claims the next row of a queue and returns it. -/
def pickStatement (s : Schema) (l : Location) (failure : FailureSettings) : Statement where
  pieces :=
    [.words "WITH picked AS ( SELECT id FROM ", .name l.table, .words " WHERE ", .name s.queueName,
     .words " = ", .slot 1, .words " AND ", .name s.nextProcessAt, .words " <= now() ORDER BY ",
     .name s.nextProcessAt, .words ", id LIMIT 1 FOR UPDATE SKIP LOCKED ) UPDATE ", .name l.table,
     .words " q SET ", .name s.nextProcessAt, .words " = now() + "]
    ++ failureDelay s.attempt failure.retryType 2
    ++ [.words ", ", .name s.attempt, .words " = q.", .name s.attempt, .words " + 1, ",
     .name s.totalAttempt, .words " = q.", .name s.totalAttempt,
     .words " + 1 FROM picked p WHERE q.id = p.id RETURNING q.id, "]
    ++ separated ", " ((recordColumns s).map fun c => [.words "q.", .name c])
  values := [.text l.queue, .millis failure.retryInterval]

/-! ### Adding a row -/

/-- What a column of a new row is set to. -/
inductive Source
  /-- The next number of a sequence. -/
  | sequence (name : String)
  /-- The value at a place. -/
  | slot (n : Nat)
  | now
  /-- The time after the milliseconds at a place. -/
  | after (n : Nat)
  | zero
  deriving DecidableEq, Repr

/-- The text of what a column is set to. -/
def Source.pieces : Source → List Piece
  | .sequence name => [.words "nextval('", .name name, .words "')"]
  | .slot n => [.slot n]
  | .now => [.words "now()"]
  | .after n => .words "now() + " :: interval n
  | .zero => [.words "0"]

/-- The extra columns of a new row, set to the values from a place on. -/
def extraEntries : Nat → List String → List (String × Source)
  | _, [] => []
  | n, c :: cs => (c, .slot n) :: extraEntries (n + 1) cs

/-- The columns of a new row and what they are set to. -/
def insertEntries (s : Schema) (l : Location) (extra : List String) : List (String × Source) :=
  (match l.idSequence with
    | some name => [("id", Source.sequence name)]
    | none => [])
  ++ [(s.queueName, .slot 1), (s.payload, .slot 2), (s.createdAt, .now), (s.nextProcessAt, .after 3),
    (s.attempt, .zero), (s.reenqueueAttempt, .zero), (s.totalAttempt, .zero)]
  ++ extraEntries 4 extra

/-- The statement that adds a row and returns its identifier. -/
def insertStatement (s : Schema) (l : Location) (task : NewTask) (columns : List (String × String)) :
    Statement where
  pieces :=
    let entries := insertEntries s l (columns.map (·.1))
    [.words "INSERT INTO ", .name l.table, .words " ("]
    ++ separated ", " (entries.map fun e => [.name e.1])
    ++ .words ") VALUES (" :: separated ", " (entries.map fun e => e.2.pieces)
    ++ [.words ") RETURNING id"]
  values := [.text l.queue, .text task.payload, .millis task.delay]
    ++ columns.map fun e => .text e.2

/-! ### Removing a row and putting it back -/

/-- The statement that removes a row of a queue. -/
def deleteStatement (s : Schema) (l : Location) (id : Int) : Statement where
  pieces := [.words "DELETE FROM ", .name l.table, .words " WHERE ", .name s.queueName,
    .words " = ", .slot 1, .words " AND id = ", .slot 2]
  values := [.text l.queue, .number id]

/-- The statement that puts a row of a queue back. -/
def reenqueueStatement (s : Schema) (l : Location) (id : Int) (delay : Delay) : Statement where
  pieces :=
    [.words "UPDATE ", .name l.table, .words " SET ", .name s.nextProcessAt, .words " = now() + "]
    ++ interval 3
    ++ [.words ", ", .name s.attempt, .words " = 0, ", .name s.reenqueueAttempt, .words " = ",
     .name s.reenqueueAttempt, .words " + 1 WHERE ", .name s.queueName, .words " = ", .slot 1,
     .words " AND id = ", .slot 2]
  values := [.text l.queue, .number id, .millis delay]

end DurableQueue.Sql
