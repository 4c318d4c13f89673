import DurableQueue.Proofs.Store.Rows

/-!
# Queues that share a store

A store holds the rows of many queues and hands out one sequence of identifiers to all of them. What
a call at one queue comes to depends on the rows of that queue alone, and it changes no others.

* `Store.rowsAt` and `Store.rowsElsewhere` divide the rows of a store by a queue, and `SameAt`
  compares two stores at a queue;
* every operation is given by the rows of its queue (`row?_eq_find?`, `candidate?_eq_oldest?`,
  `rowsAt_update`, `rowsAt_keep`, `rowsAt_insert`) and leaves the others alone
  (`rowsElsewhere_answer`);
* `SameEffect` says that a call comes to the same in two stores, up to the identifier of a new row,
  and `SameAt.answer` that it does so in stores that are the same at its queue;
* `queues_do_not_interfere` is the main statement.
-/

namespace DurableQueue

/-- A row under another identifier. -/
def Row.withId (r : Row) (id : Int) : Row := { r with record := { r.record with id } }

namespace Store

/-- The rows of a queue. -/
def rowsAt (s : Store) (l : Location) : List Row := s.rows.filter (·.isAt l)

/-- The rows of other queues and of other tables. -/
def rowsElsewhere (s : Store) (l : Location) : List Row := s.rows.filter fun r => !r.isAt l

/-- Two stores with the same columns that hold the same rows of a queue. -/
structure SameAt (l : Location) (s s' : Store) : Prop where
  schema : s'.schema = s.schema
  rows : s'.rowsAt l = s.rowsAt l

variable {s s' : Store} {l : Location} {id : Int} {now : Instant}

/-! ### The rows of a queue -/

theorem count_eq_length (s : Store) (l : Location) : s.count l = (s.rowsAt l).length := rfl

theorem row?_eq_find? (s : Store) (l : Location) (id : Int) :
    s.row? l id = (s.rowsAt l).find? fun r => r.id = id := by
  rw [row?, rowsAt, List.find?_filter]
  congr 1
  funext r
  rw [Bool.and_comm]
  simp

theorem candidate?_eq_oldest? (s : Store) (now : Instant) (l : Location) :
    s.candidate? now l = oldest? ((s.rowsAt l).filter fun r => r.isVisible now) := by
  rw [candidate?, rowsAt, List.filter_filter]
  congr 2
  funext r
  exact Bool.and_comm _ _

theorem rowsAt_update (s : Store) (l : Location) (id : Int) (f : TaskRecord → TaskRecord) :
    (s.update id f).rowsAt l = (s.rowsAt l).map fun r => if r.id = id then changed f r else r := by
  rw [rowsAt, update, List.filter_map]
  congr 2
  funext r
  -- a change of its record leaves a row where it is
  by_cases h : r.id = id <;> simp [h, Row.isAt, changed]

theorem rowsAt_keep (s : Store) (l : Location) (p : Row → Bool) :
    (s.keep p).rowsAt l = (s.rowsAt l).filter p := by
  rw [rowsAt, keep, rowsAt, List.filter_comm]

/-- The row that is added for a task. -/
def newRow (s : Store) (now : Instant) (l : Location) (task : NewTask)
    (columns : List (String × String)) (id : Int) : Row where
  table := l.table
  queue := l.queue
  record :=
    { id, payload := task.payload, attempts := .zero, reenqueueAttempts := .zero
      totalAttempts := .zero, createdAt := now, nextProcessAt := now.shift task.delay
      extra := newColumns s.schema columns }

theorem rows_insert (s : Store) (now : Instant) (l : Location) (task : NewTask)
    (columns : List (String × String)) :
    (s.insert now l task columns).2.rows
      = s.rows ++ [s.newRow now l task columns (s.lastId + 1)] := rfl

theorem rowsAt_insert (s : Store) (now : Instant) (l : Location) (task : NewTask)
    (columns : List (String × String)) :
    (s.insert now l task columns).2.rowsAt l
      = s.rowsAt l ++ [s.newRow now l task columns (s.lastId + 1)] := by
  rw [rowsAt, rows_insert, List.filter_append, rowsAt]
  simp [newRow, Row.isAt]

/-! ### The rows of other queues -/

/-- A row of a queue has another identifier than all rows elsewhere. -/
theorem id_ne_of_mem_rowsElsewhere {r q : Row} (hr : s.row? l id = some r)
    (hq : q ∈ s.rowsElsewhere l) : q.id ≠ id := by
  obtain ⟨hrow, hid, hat⟩ := row?_eq_some_iff.1 hr
  obtain ⟨hmem, helse⟩ := List.mem_filter.1 hq
  intro heq
  rw [eq_of_id_eq hmem hrow (heq.trans hid.symm), hat] at helse
  cases helse

theorem rowsElsewhere_update {r : Row} (hr : s.row? l id = some r) (f : TaskRecord → TaskRecord) :
    (s.update id f).rowsElsewhere l = s.rowsElsewhere l := by
  have hat : (fun r => !r.isAt l) ∘ (fun r => if r.id = id then changed f r else r)
      = fun r => !r.isAt l := by
    funext r
    by_cases h : r.id = id <;> simp [h, Row.isAt, changed]
  calc (s.update id f).rowsElsewhere l
      = (s.rowsElsewhere l).map (fun r => if r.id = id then changed f r else r) := by
        rw [rowsElsewhere, update, List.filter_map, hat, rowsElsewhere]
    _ = (s.rowsElsewhere l).map fun r => r :=
        List.map_congr_left fun q hq => if_neg (id_ne_of_mem_rowsElsewhere hr hq)
    _ = s.rowsElsewhere l := List.map_id' _

theorem rowsElsewhere_keep_ne {r : Row} (hr : s.row? l id = some r) :
    (s.keep fun q => q.id ≠ id).rowsElsewhere l = s.rowsElsewhere l := by
  calc (s.keep fun q => q.id ≠ id).rowsElsewhere l
      = (s.rowsElsewhere l).filter fun q => q.id ≠ id := by
        rw [rowsElsewhere, keep, rowsElsewhere, List.filter_comm]
    _ = s.rowsElsewhere l :=
        List.filter_eq_self.2 fun q hq => decide_eq_true (id_ne_of_mem_rowsElsewhere hr hq)

theorem rowsElsewhere_insert (s : Store) (now : Instant) (l : Location) (task : NewTask)
    (columns : List (String × String)) :
    (s.insert now l task columns).2.rowsElsewhere l = s.rowsElsewhere l := by
  rw [rowsElsewhere, rows_insert, List.filter_append, rowsElsewhere]
  simp [newRow, Row.isAt]

/-- A call changes no rows of other queues. -/
theorem rowsElsewhere_answer (s : Store) (now : Instant) (l : Location) (c : StoreCall) :
    (c.answer now l s).2.rowsElsewhere l = s.rowsElsewhere l := by
  cases c with
  | pick failure =>
    show (s.pick now l failure).2.rowsElsewhere l = _
    cases hc : s.candidate? now l with
    | none => rw [pick_of_none hc]
    | some r =>
      rw [pick_of_some hc]
      exact rowsElsewhere_update (row?_of_candidate? hc) _
  | enqueue task =>
    show (s.enqueue now l task).2.rowsElsewhere l = _
    rcases s.enqueue_cases now l task with ⟨e, he⟩ | ⟨columns, he⟩
    · rw [he]
    · rw [he]
      exact rowsElsewhere_insert s now l task columns
  | delete id =>
    show (s.delete l id).2.rowsElsewhere l = _
    cases hr : s.row? l id with
    | none => rw [delete_of_none hr]
    | some r =>
      rw [delete_of_some hr]
      exact rowsElsewhere_keep_ne hr
  | reenqueue id delay =>
    show (s.reenqueue now l id delay).2.rowsElsewhere l = _
    cases hr : s.row? l id with
    | none => rw [reenqueue_of_none hr]
    | some r =>
      rw [reenqueue_of_some hr]
      exact rowsElsewhere_update hr _
  | begin => rfl
  | commit => rfl
  | release => rfl

/-! ### Two stores -/

/-- What a call comes to in two stores that held the same old rows of its queue: the same answer
and the same rows of the queue, or one new row, under an identifier of its own in each store. -/
inductive SameEffect (l : Location) (old : List Row) :
    (c : StoreCall) → c.Answer × Store → c.Answer × Store → Prop
  | same {c : StoreCall} {a : c.Answer} {s s' : Store} (hrows : s'.rowsAt l = s.rowsAt l) :
    SameEffect l old c (a, s) (a, s')
  | added {task : NewTask} {r : Row} {id' : Int} {s s' : Store} (hrows : s.rowsAt l = old ++ [r])
    (hrows' : s'.rowsAt l = old ++ [r.withId id']) :
    SameEffect l old (.enqueue task) (.ok r.id, s) (.ok id', s')

namespace SameAt

variable (h : SameAt l s s')

include h

theorem row? (id : Int) : s'.row? l id = s.row? l id := by
  rw [row?_eq_find?, row?_eq_find?, h.rows]

theorem candidate? (now : Instant) : s'.candidate? now l = s.candidate? now l := by
  rw [candidate?_eq_oldest?, candidate?_eq_oldest?, h.rows]

theorem count : s'.count l = s.count l := by
  rw [count_eq_length, count_eq_length, h.rows]

theorem get? (id : Int) : s'.get? l id = s.get? l id := by
  rw [Store.get?, Store.get?, h.row?]

theorem update (id : Int) (f : TaskRecord → TaskRecord) :
    (s'.update id f).rowsAt l = (s.update id f).rowsAt l := by
  rw [rowsAt_update, rowsAt_update, h.rows]

/-- A call comes to the same in both stores. -/
theorem answer (now : Instant) (c : StoreCall) :
    SameEffect l (s.rowsAt l) c (c.answer now l s) (c.answer now l s') := by
  cases c with
  | pick failure =>
    show SameEffect l _ (.pick failure) (.ok (s.pick now l failure).1, (s.pick now l failure).2)
      (.ok (s'.pick now l failure).1, (s'.pick now l failure).2)
    cases hc : s.candidate? now l with
    | none =>
      rw [pick_of_none hc, pick_of_none ((h.candidate? now).trans hc)]
      exact .same h.rows
    | some r =>
      rw [pick_of_some hc, pick_of_some ((h.candidate? now).trans hc)]
      exact .same (h.update r.id _)
  | enqueue task =>
    show SameEffect l _ (.enqueue task) (s.enqueue now l task) (s'.enqueue now l task)
    unfold enqueue
    rw [h.schema]
    cases s.schema.resolveExtra task.extra with
    | error e => exact .same h.rows
    | ok columns =>
      refine .added (r := s.newRow now l task columns (s.lastId + 1))
        (rowsAt_insert s now l task columns) ?_
      rw [← h.rows, newRow, ← h.schema]
      exact rowsAt_insert s' now l task columns
  | delete id =>
    show SameEffect l _ (.delete id) (.ok (s.delete l id).1, (s.delete l id).2)
      (.ok (s'.delete l id).1, (s'.delete l id).2)
    cases hr : s.row? l id with
    | none =>
      rw [delete_of_none hr, delete_of_none ((h.row? id).trans hr)]
      exact .same h.rows
    | some r =>
      rw [delete_of_some hr, delete_of_some ((h.row? id).trans hr)]
      refine .same ?_
      rw [rowsAt_keep, rowsAt_keep, h.rows]
  | reenqueue id delay =>
    show SameEffect l _ (.reenqueue id delay)
      (.ok (s.reenqueue now l id delay).1, (s.reenqueue now l id delay).2)
      (.ok (s'.reenqueue now l id delay).1, (s'.reenqueue now l id delay).2)
    cases hr : s.row? l id with
    | none =>
      rw [reenqueue_of_none hr, reenqueue_of_none ((h.row? id).trans hr)]
      exact .same h.rows
    | some r =>
      rw [reenqueue_of_some hr, reenqueue_of_some ((h.row? id).trans hr)]
      exact .same (h.update id _)
  | begin => exact .same h.rows
  | commit => exact .same h.rows
  | release => exact .same h.rows

end SameAt

end Store

open Store

/-- **Queues that share a store do not interfere.** Take two stores with the same columns and the
same rows of a queue, whatever other rows they hold. Looking at the queue shows the same in both,
and a call at the queue, in a transaction that is open or completed, answers the same and leaves the
same rows of the queue, but for the identifier of a new row. In each store it leaves all rows of
other queues and of other tables as they are. -/
theorem queues_do_not_interfere {s s' : Store} {l : Location} (h : SameAt l s s') (now : Instant)
    (t : Transaction) (c : StoreCall) :
    s'.count l = s.count l ∧ (∀ id, s'.get? l id = s.get? l id) ∧
    (c.answerIn now l t s').2.1 = (c.answerIn now l t s).2.1 ∧
    SameEffect l (s.rowsAt l) c
      ((c.answerIn now l t s).1, (c.answerIn now l t s).2.2)
      ((c.answerIn now l t s').1, (c.answerIn now l t s').2.2) ∧
    (c.answerIn now l t s).2.2.rowsElsewhere l = s.rowsElsewhere l ∧
    (c.answerIn now l t s').2.2.rowsElsewhere l = s'.rowsElsewhere l := by
  refine ⟨h.count, h.get?, by cases c <;> rfl, ?_⟩
  cases ht : t.completed with
  | true =>
    -- the answer is a refusal, or none that the store has a part in
    have hstore := StoreCall.store_answerIn_of_completed ht now l c
    have hanswer : (c.answerIn now l t s').1 = (c.answerIn now l t s).1 := by
      obtain ⟨completed⟩ := t
      cases ht
      cases c <;> rfl
    rw [hstore, hstore, hanswer]
    exact ⟨.same h.rows, rfl, rfl⟩
  | false =>
    obtain ⟨hanswer, hstore⟩ := StoreCall.answerIn_of_open ht now l c s
    obtain ⟨hanswer', hstore'⟩ := StoreCall.answerIn_of_open ht now l c s'
    rw [hanswer, hstore, hanswer', hstore']
    exact ⟨h.answer now c, rowsElsewhere_answer s now l c, rowsElsewhere_answer s' now l c⟩

namespace SharedTable

/-- Two queues of one table. -/
def orders : Location := ⟨"orders", "tasks", none⟩

def invoices : Location := ⟨"invoices", "tasks", none⟩

/-- A store with one order. -/
def quiet : Store := ((Store.empty {}).insert .epoch orders {} []).2

/-- The same order, and an invoice that has been visible for longer. -/
def busy : Store := (quiet.insert ⟨-60, 0, by decide⟩ invoices {} []).2

end SharedTable

open SharedTable in
/-- The number of the invoice removes nothing from the orders, with the invoice or without it. -/
theorem invoice_outlives_the_orders :
    SameAt orders quiet busy ∧ (busy.get? invoices 2).isSome = true ∧
    SameEffect orders (quiet.rowsAt orders) (.delete 2) (.ok false, quiet) (.ok false, busy) ∧
    (StoreCall.answerIn .epoch orders (.delete 2) .opened busy).2.2.rowsElsewhere orders
      = busy.rowsElsewhere orders := by
  have hsame : SameAt orders quiet busy := ⟨rfl, rfl⟩
  obtain ⟨-, -, -, heffect, -, helsewhere⟩ :=
    queues_do_not_interfere hsame .epoch .opened (.delete 2)
  exact ⟨hsame, rfl, heffect, helsewhere⟩

end DurableQueue
