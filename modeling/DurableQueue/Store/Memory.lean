import DurableQueue.Settings.Failure
import DurableQueue.Store.Schema
import DurableQueue.Task.Record

/-!
# The in-memory store

A store holds the rows of all queues and tables in the order of their identifiers, which it hands
out one after the other and never again.

* `Store.pick` claims the visible row of a queue that has been visible for longest;
* `Store.enqueue`, `Store.delete` and `Store.reenqueue` add, remove and put back a row;
* `Store.count` and `Store.get?` look at the rows of a queue; `Store.clear` removes all rows;
* every operation leaves the rows of other queues alone, since `Row.isAt` guards each of them.
-/

namespace DurableQueue

/-- A row: the task and where it belongs. -/
structure Row where
  table : String
  queue : QueueId
  record : TaskRecord
  deriving DecidableEq, Repr

namespace Row

/-- The identifier of a row. -/
def id (r : Row) : Int := r.record.id

/-- A row of the queue and the table of a location. -/
def isAt (r : Row) (l : Location) : Bool := r.table = l.table && r.queue = l.queue

/-- A row that may be picked at a time. -/
def isVisible (r : Row) (now : Instant) : Bool := r.record.nextProcessAt.upTo now

end Row

/-- The rows of a store, the last identifier it has handed out, and its columns. -/
structure Store where
  schema : Schema := {}
  rows : List Row := []
  lastId : Nat := 0
  ascending : rows.Pairwise (fun a b => a.id < b.id) := by exact List.Pairwise.nil
  bounded : ∀ r ∈ rows, 0 < r.id ∧ r.id ≤ lastId := by simp

namespace Store

instance : Inhabited Store := ⟨{}⟩

/-- The store without rows. -/
def empty (schema : Schema) : Store := { schema }

/-! ### Looking at rows -/

/-- The number of rows of a queue. -/
def count (s : Store) (l : Location) : Nat := (s.rows.filter (·.isAt l)).length

/-- The row of a queue with an identifier. -/
def row? (s : Store) (l : Location) (id : Int) : Option Row :=
  s.rows.find? fun r => r.id = id && r.isAt l

/-- The task of a queue with an identifier. -/
def get? (s : Store) (l : Location) (id : Int) : Option TaskRecord :=
  (s.row? l id).map (·.record)

/-- The tasks of a queue in the order of their identifiers. -/
def tasksAt (s : Store) (l : Location) : List TaskRecord :=
  (s.rows.filter (·.isAt l)).map (·.record)

/-! ### Changing rows -/

/-- The record of a row, changed by a function that cannot change the identifier. -/
def changed (f : TaskRecord → TaskRecord) (r : Row) : Row :=
  { r with record := { f r.record with id := r.record.id } }

@[simp] theorem id_changed (f : TaskRecord → TaskRecord) (r : Row) : (changed f r).id = r.id := rfl

/-- Change the row with an identifier. -/
def update (s : Store) (id : Int) (f : TaskRecord → TaskRecord) : Store :=
  { s with
    rows := s.rows.map fun r => if r.id = id then changed f r else r
    ascending := by
      rw [List.pairwise_map]
      refine s.ascending.imp fun {a b} h => ?_
      split <;> split <;> simpa using h
    bounded := by
      intro r hr
      obtain ⟨q, hq, rfl⟩ := List.mem_map.1 hr
      have h := s.bounded q hq
      split
      · exact h
      · exact h }

/-- Keep the rows that satisfy a condition. -/
def keep (s : Store) (p : Row → Bool) : Store :=
  { s with
    rows := s.rows.filter p
    ascending := s.ascending.filter p
    bounded := fun r hr => s.bounded r (List.mem_filter.1 hr).1 }

/-- Add a row under the next identifier. -/
def append (s : Store) (table : String) (queue : QueueId) (f : Int → TaskRecord) : Store :=
  let id : Int := s.lastId + 1
  { s with
    rows := s.rows ++ [⟨table, queue, { f id with id := id }⟩]
    lastId := s.lastId + 1
    ascending := by
      refine List.pairwise_append.2 ⟨s.ascending, List.pairwise_singleton _ _, fun a ha b hb => ?_⟩
      have h := (s.bounded a ha).2
      obtain rfl := List.mem_singleton.1 hb
      show a.id < (s.lastId : Int) + 1
      omega
    bounded := by
      intro r hr
      rcases List.mem_append.1 hr with hr | hr
      · have := s.bounded r hr
        omega
      · obtain rfl := List.mem_singleton.1 hr
        show 0 < (s.lastId : Int) + 1 ∧ (s.lastId : Int) + 1 ≤ ((s.lastId + 1 : Nat) : Int)
        omega }

/-! ### The operations of a queue -/

/-- Whether a row becomes visible before another one. -/
def sooner (a b : Row) : Bool := a.record.nextProcessAt.before b.record.nextProcessAt

/-- The first of the rows that have been visible for longest. -/
def oldest? : List Row → Option Row
  | [] => none
  | r :: rs =>
    match oldest? rs with
    | none => some r
    | some b => if sooner b r then some b else some r

/-- A claimed task: one more attempt, and hidden for the failure delay of the attempts before. -/
def claim (now : Instant) (failure : FailureSettings) (r : TaskRecord) : TaskRecord :=
  { r with
    attempts := r.attempts.next
    totalAttempts := r.totalAttempts.next
    nextProcessAt := now.shift (failure.delayForAttempt r.attempts) }

/-- The visible row of a queue that is next to be picked. -/
def candidate? (s : Store) (now : Instant) (l : Location) : Option Row :=
  oldest? (s.rows.filter fun r => r.isAt l && r.isVisible now)

/-- Claim the row of a queue that has been visible for longest. -/
def pick (s : Store) (now : Instant) (l : Location) (failure : FailureSettings) :
    Option TaskRecord × Store :=
  match s.candidate? now l with
  | none => (none, s)
  | some r => (some (claim now failure r.record), s.update r.id (claim now failure))

/-- The extra columns of a new row: every declared column, empty unless it was given a value. -/
def newColumns (schema : Schema) (values : List (String × String)) : Dict (Option String) :=
  Dict.ofList (schema.extra.map (fun c => (c, none)) ++ values.map fun e => (e.1, some e.2))

/-- Add a row for a task, with the extra columns that were resolved before. -/
def insert (s : Store) (now : Instant) (l : Location) (task : NewTask)
    (columns : List (String × String)) : Int × Store :=
  (s.lastId + 1, s.append l.table l.queue fun id =>
    { id := id
      payload := task.payload
      attempts := .zero
      reenqueueAttempts := .zero
      totalAttempts := .zero
      createdAt := now
      nextProcessAt := now.shift task.delay
      extra := newColumns s.schema columns })

/-- Add a task to a queue; its extra columns have to be declared. -/
def enqueue (s : Store) (now : Instant) (l : Location) (task : NewTask) :
    Except StoreError Int × Store :=
  match s.schema.resolveExtra task.extra with
  | .error e => (.error e, s)
  | .ok columns =>
    let (id, s) := s.insert now l task columns
    (.ok id, s)

/-- Remove a task of a queue; says whether it was there. -/
def delete (s : Store) (l : Location) (id : Int) : Bool × Store :=
  match s.row? l id with
  | none => (false, s)
  | some _ => (true, s.keep fun r => r.id ≠ id)

/-- A task that is put back: its attempts start anew, and it is hidden for a delay. -/
def putBack (now : Instant) (delay : Delay) (r : TaskRecord) : TaskRecord :=
  { r with
    attempts := .zero
    reenqueueAttempts := r.reenqueueAttempts.next
    nextProcessAt := now.shift delay }

/-- Put a task of a queue back; says whether it was there. -/
def reenqueue (s : Store) (now : Instant) (l : Location) (id : Int) (delay : Delay) :
    Bool × Store :=
  match s.row? l id with
  | none => (false, s)
  | some _ => (true, s.update id (putBack now delay))

/-- Remove all rows. Identifiers are still not handed out again. -/
def clear (s : Store) : Store := s.keep fun _ => false

end Store

end DurableQueue
