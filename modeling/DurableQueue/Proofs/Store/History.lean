import DurableQueue.Proofs.Store.Exclusive
import DurableQueue.Proofs.Store.Statements

/-!
# What became of the rows

What the calls of a store answer tells the history of its rows, and the counters of a row can be
read off that history.

* `RowEvent` is something that happens to a row, `StoreCall.told` what an answer tells, and
  `SharedStore.history` what a sequence of acts tells, the latest event first;
* `History.attempts`, `History.reenqueues` and `History.totalAttempts` count the events of a row;
* `Row.AddedBy` compares a row with the task that it was added for;
* `Reflects` is the invariant: the rows of a store have the counters and the tasks of a history, and
  its identifiers were handed out one after the other. It is kept by every operation, so by acts
  (`Reflects.act`) and by runs (`Reflects.run`);
* `rows_reflect_history` is the main statement.
-/

namespace DurableQueue

open Identifier Store

/-! ### Events -/

/-- What happens to a row: it is added for a task, it is picked, or it is put back. -/
inductive RowEvent
  | added (now : Instant) (l : Location) (task : NewTask) (id : Int)
  | picked (record : TaskRecord)
  | putBack (id : Int)

namespace RowEvent

/-- The identifier of the row of an event. -/
def row : RowEvent → Int
  | .added _ _ _ id => id
  | .picked record => record.id
  | .putBack id => id

def adds (id : Int) : RowEvent → Bool
  | .added _ _ _ i => i = id
  | _ => false

def picks (id : Int) : RowEvent → Bool
  | .picked record => record.id = id
  | _ => false

def putsBack (id : Int) : RowEvent → Bool
  | .putBack i => i = id
  | _ => false

/-- The identifier that is handed out. -/
def handedOut? : RowEvent → Option Int
  | .added _ _ _ id => some id
  | _ => none

variable {e : RowEvent} {id : Int}

theorem adds_of_ne (h : e.row ≠ id) : e.adds id = false := by
  cases e with
  | added now l task i => exact decide_eq_false h
  | _ => rfl

theorem picks_of_ne (h : e.row ≠ id) : e.picks id = false := by
  cases e with
  | picked record => exact decide_eq_false h
  | _ => rfl

theorem putsBack_of_ne (h : e.row ≠ id) : e.putsBack id = false := by
  cases e with
  | putBack i => exact decide_eq_false h
  | _ => rfl

end RowEvent

/-- What the answer to a call tells of rows. -/
def StoreCall.told (now : Instant) (l : Location) : (c : StoreCall) → c.Answer → List RowEvent
  | .pick _, .ok (some record) => [.picked record]
  | .enqueue task, .ok id => [.added now l task id]
  | .reenqueue id _, .ok true => [.putBack id]
  | _, _ => []

namespace SharedStore

/-- A store without rows, before any transaction. -/
def fresh (schema : Schema) : SharedStore where
  store := .empty schema

/-- What an act tells of rows. -/
def told (x : SharedStore) : StoreAct → List RowEvent
  | .call tx time l c => c.told time.time l (x.call tx time l c).1
  | .rollback _ => []
  | .clear => []

/-- What several acts tell of rows, the latest event first. -/
def history : SharedStore → List StoreAct → List RowEvent
  | _, [] => []
  | x, a :: acts => (x.act a).history acts ++ x.told a

theorem history_append (x : SharedStore) (acts later : List StoreAct) :
    x.history (acts ++ later) = (x.run acts).history later ++ x.history acts := by
  induction acts generalizing x with
  | nil => exact (List.append_nil _).symm
  | cons a acts ih =>
    show (x.act a).history (acts ++ later) ++ x.told a = _
    rw [ih, List.append_assoc]
    rfl

theorem run_append (x : SharedStore) (acts later : List StoreAct) :
    x.run (acts ++ later) = (x.run acts).run later := List.foldl_append

end SharedStore

/-! ### Counting events -/

namespace History

/-- The events since the row of an identifier was added. -/
def life (id : Int) (log : List RowEvent) : List RowEvent := log.takeWhile fun e => !e.adds id

/-- The events since the row of an identifier was last put back, or else since it was added. -/
def round (id : Int) (log : List RowEvent) : List RowEvent :=
  (life id log).takeWhile fun e => !e.putsBack id

/-- How often a row was picked since it was added. -/
def totalAttempts (id : Int) (log : List RowEvent) : Nat := (life id log).countP (·.picks id)

/-- How often a row was picked since it was last put back or added. -/
def attempts (id : Int) (log : List RowEvent) : Nat := (round id log).countP (·.picks id)

/-- How often a row was put back since it was added. -/
def reenqueues (id : Int) (log : List RowEvent) : Nat := (life id log).countP (·.putsBack id)

/-- All identifiers that were handed out. -/
def handedOut (log : List RowEvent) : List Int := log.filterMap (·.handedOut?)

variable {id : Int} {e : RowEvent} {log : List RowEvent}

theorem attempts_le_totalAttempts (id : Int) (log : List RowEvent) :
    attempts id log ≤ totalAttempts id log :=
  (List.takeWhile_sublist _).countP_le

theorem mem_handedOut {now : Instant} {l : Location} {task : NewTask}
    (h : .added now l task id ∈ log) : id ∈ handedOut log :=
  List.mem_filterMap.2 ⟨_, h, rfl⟩

/-- An event of the row begins its life, or belongs to it. -/
theorem life_cons (id : Int) (e : RowEvent) (log : List RowEvent) :
    life id (e :: log) = if e.adds id then [] else e :: life id log := by
  rw [life, List.takeWhile_cons]
  cases e.adds id <;> rfl

/-- Events of other rows count nothing. -/
theorem counts_cons_of_ne (log : List RowEvent) (h : e.row ≠ id) :
    attempts id (e :: log) = attempts id log ∧ reenqueues id (e :: log) = reenqueues id log ∧
      totalAttempts id (e :: log) = totalAttempts id log := by
  simp [attempts, round, reenqueues, totalAttempts, life_cons, RowEvent.adds_of_ne h,
    RowEvent.picks_of_ne h, RowEvent.putsBack_of_ne h]

/-- A pick counts as an attempt. -/
theorem counts_picked (log : List RowEvent) (record : TaskRecord) :
    attempts record.id (.picked record :: log) = attempts record.id log + 1 ∧
      reenqueues record.id (.picked record :: log) = reenqueues record.id log ∧
      totalAttempts record.id (.picked record :: log) = totalAttempts record.id log + 1 := by
  simp [attempts, round, reenqueues, totalAttempts, life_cons, RowEvent.adds, RowEvent.picks,
    RowEvent.putsBack]

/-- A row that is put back counts its attempts anew, but for all of them. -/
theorem counts_putBack (id : Int) (log : List RowEvent) :
    attempts id (.putBack id :: log) = 0 ∧
      reenqueues id (.putBack id :: log) = reenqueues id log + 1 ∧
      totalAttempts id (.putBack id :: log) = totalAttempts id log := by
  simp [attempts, round, reenqueues, totalAttempts, life_cons, RowEvent.adds, RowEvent.picks,
    RowEvent.putsBack]

/-- A new row has nothing to count. -/
theorem counts_added (now : Instant) (l : Location) (task : NewTask) (id : Int)
    (log : List RowEvent) :
    attempts id (.added now l task id :: log) = 0 ∧
      reenqueues id (.added now l task id :: log) = 0 ∧
      totalAttempts id (.added now l task id :: log) = 0 := by
  simp [attempts, round, reenqueues, totalAttempts, life_cons, RowEvent.adds]

theorem life_append {later : List RowEvent} (h : ∀ e ∈ later, e.adds id = false) :
    life id (later ++ log) = later ++ life id log :=
  List.takeWhile_append_of_pos fun e he => by simp [h e he]

/-- Attempts of a row that is not added anew do not get fewer. -/
theorem totalAttempts_le_append {later : List RowEvent} (h : ∀ e ∈ later, e.adds id = false) :
    totalAttempts id log ≤ totalAttempts id (later ++ log) := by
  rw [totalAttempts, totalAttempts, life_append h, List.countP_append]
  exact Nat.le_add_left _ _

/-- Nothing but putting it back counts as putting a row back. -/
theorem reenqueues_append {later : List RowEvent} (hadds : ∀ e ∈ later, e.adds id = false)
    (hputs : ∀ e ∈ later, e.putsBack id = false) :
    reenqueues id (later ++ log) = reenqueues id log := by
  have hnone : later.countP (·.putsBack id) = 0 :=
    List.countP_eq_zero.2 fun e he => by simp [hputs e he]
  rw [reenqueues, reenqueues, life_append hadds, List.countP_append, hnone, Nat.zero_add]

end History

open History

/-! ### Rows and their history -/

theorem Count.next_clamp (n : Nat) : (Count.clamp n).next = .clamp (n + 1) := by
  ext
  simp only [Count.val_next, Count.val_clamp]
  omega

theorem Count.val_clamp_le {m n : Nat} (h : m ≤ n) :
    (Count.clamp m).val ≤ (Count.clamp n).val := by
  simp only [Count.val_clamp]
  omega

/-- The value that a task gives to a column. Of several names that are cleaned to the column the
last one counts. -/
def NewTask.value? (task : NewTask) (column : String) : Option String :=
  (task.extra.entries.map fun e => (columnName e.1, e.2)).reverse.lookup column

/-- A task gives nothing to a column that none of its keys is cleaned to. -/
theorem NewTask.value?_eq_none {task : NewTask} {column : String}
    (h : column ∉ task.extra.keys.map columnName) : task.value? column = none := by
  rw [value?, List.lookup_eq_none_iff]
  intro e he
  obtain ⟨entry, hentry, rfl⟩ := List.mem_map.1 (List.mem_reverse.1 he)
  rw [bne_iff_ne]
  rintro rfl
  exact h (List.mem_map_of_mem (List.mem_map_of_mem hentry))

/-- A record has the counters of a history. -/
structure TaskRecord.CountedBy (log : List RowEvent) (r : TaskRecord) : Prop where
  attempts : r.attempts = .clamp (History.attempts r.id log)
  reenqueueAttempts : r.reenqueueAttempts = .clamp (reenqueues r.id log)
  totalAttempts : r.totalAttempts = .clamp (History.totalAttempts r.id log)

/-- A row is in the place where it was added, with the payload of its task and the declared
columns, in which are the values that its task has given. -/
structure Row.AddedBy (schema : Schema) (now : Instant) (l : Location) (task : NewTask)
    (r : Row) : Prop where
  place : r.isAt l = true
  payload : r.record.payload = task.payload
  createdAt : r.record.createdAt = now
  extra : ∀ column, r.record.extra.get? column
    = if column ∈ schema.extra then some (task.value? column) else none

namespace TaskRecord.CountedBy

variable {log : List RowEvent} {r : TaskRecord}

theorem cons_of_ne (h : r.CountedBy log) {e : RowEvent} (he : e.row ≠ r.id) :
    r.CountedBy (e :: log) := by
  obtain ⟨hattempts, hreenqueues, htotal⟩ := counts_cons_of_ne log he
  exact ⟨by rw [hattempts, h.attempts], by rw [hreenqueues, h.reenqueueAttempts],
    by rw [htotal, h.totalAttempts]⟩

theorem claim (h : r.CountedBy log) (now : Instant) (failure : FailureSettings) :
    (Store.claim now failure r).CountedBy (.picked (Store.claim now failure r) :: log) := by
  obtain ⟨hattempts, hreenqueues, htotal⟩ := counts_picked log (Store.claim now failure r)
  refine ⟨?_, ?_, ?_⟩
  · rw [hattempts, ← Count.next_clamp]
    exact congrArg Count.next h.attempts
  · rw [hreenqueues]
    exact h.reenqueueAttempts
  · rw [htotal, ← Count.next_clamp]
    exact congrArg Count.next h.totalAttempts

theorem putBack (h : r.CountedBy log) (now : Instant) (delay : Delay) :
    (Store.putBack now delay r).CountedBy (.putBack r.id :: log) := by
  obtain ⟨hattempts, hreenqueues, htotal⟩ := counts_putBack r.id log
  refine ⟨?_, ?_, ?_⟩
  · exact congrArg Count.clamp hattempts.symm
  · refine Eq.trans ?_ (congrArg Count.clamp hreenqueues.symm)
    rw [← Count.next_clamp]
    exact congrArg Count.next h.reenqueueAttempts
  · exact h.totalAttempts.trans (congrArg Count.clamp htotal.symm)

end TaskRecord.CountedBy

theorem Dict.lookup_map_none {α : Type} (keys : List String) (k : String) :
    (keys.map fun c => (c, (none : Option α))).lookup k = if k ∈ keys then some none else none := by
  induction keys with
  | nil => rfl
  | cons c keys ih =>
    rw [List.map_cons, Dict.lookup_cons_eq, ih]
    by_cases h : k = c <;> simp [h]

/-- The columns of a new row are the declared ones, with the values of its task. -/
theorem Store.get?_newColumns {schema : Schema} {task : NewTask}
    {columns : List (String × String)} (h : schema.resolveExtra task.extra = .ok columns)
    (column : String) :
    (newColumns schema columns).get? column
      = if column ∈ schema.extra then some (task.value? column) else none := by
  obtain ⟨hdeclared, rfl⟩ := Schema.resolveExtra_eq_ok_iff.1 h
  rw [newColumns, Dict.get?_ofList, List.reverse_append, List.lookup_append, ← List.map_reverse,
    Dict.lookup_map fun _ v => some v, ← NewTask.value?, ← List.map_reverse, Dict.lookup_map_none]
  simp only [List.mem_reverse]
  split
  next hcolumn => cases task.value? column <;> rfl
  next hcolumn =>
    -- values are given to declared columns only
    have hnone : task.value? column = none := by
      refine NewTask.value?_eq_none fun hmem => ?_
      obtain ⟨key, hkey, rfl⟩ := List.mem_map.1 hmem
      exact hcolumn (hdeclared key hkey)
    rw [hnone]
    rfl

namespace Row.AddedBy

variable {schema : Schema} {now : Instant} {l : Location} {task : NewTask} {r q : Row}

theorem sameTask (h : r.AddedBy schema now l task) (hq : r.SameTask q) :
    q.AddedBy schema now l task where
  place := (hq.isAt l).trans h.place
  payload := hq.payload.trans h.payload
  createdAt := hq.createdAt.trans h.createdAt
  extra column := by rw [hq.extra, h.extra]

/-- A row has exactly the declared columns. -/
theorem mem_keys_extra_iff (h : r.AddedBy schema now l task) (column : String) :
    column ∈ r.record.extra.keys ↔ column ∈ schema.extra := by
  rw [Dict.mem_keys_iff, h.extra]
  split
  next hcolumn => exact iff_of_true ⟨_, rfl⟩ hcolumn
  next hcolumn => exact iff_of_false nofun hcolumn

end Row.AddedBy

/-! ### Stores and their history -/

/-- A store reflects a history: its rows have the counters of the history and the tasks that they
were added for, the records that were picked had the counters of that time, and identifiers were
handed out one after the other. -/
structure Reflects (schema : Schema) (log : List RowEvent) (s : Store) : Prop where
  columns : s.schema = schema
  counted : ∀ r ∈ s.rows, r.record.CountedBy log
  added : ∀ r ∈ s.rows, ∃ now l task, .added now l task r.id ∈ log ∧ r.AddedBy schema now l task
  picked : ∀ record older, (.picked record :: older) <:+ log →
    record.CountedBy (.picked record :: older) ∧ record.id ∈ handedOut older
  descending : (handedOut log).Pairwise (· > ·)
  bounded : ∀ id ∈ handedOut log, 0 < id ∧ id ≤ s.lastId
  length : (handedOut log).length = s.lastId

namespace Reflects

variable {schema : Schema} {log : List RowEvent} {s : Store}

theorem empty (schema : Schema) : Reflects schema [] (.empty schema) where
  columns := rfl
  counted := List.forall_mem_nil _
  added := List.forall_mem_nil _
  picked record older h := by simp at h
  descending := .nil
  bounded := List.forall_mem_nil _
  length := rfl

variable (h : Reflects schema log s)

include h

/-- Removed rows leave no trace. -/
theorem keep (p : Row → Bool) : Reflects schema log (s.keep p) where
  columns := h.columns
  counted r hr := h.counted r (mem_keep.1 hr).1
  added r hr := h.added r (mem_keep.1 hr).1
  picked := h.picked
  descending := h.descending
  bounded := h.bounded
  length := h.length

/-- One more event is kept by the records that were picked before, and by one that is picked. -/
theorem picked_cons {e : RowEvent}
    (he : ∀ record, e = .picked record → record.CountedBy (e :: log) ∧ record.id ∈ handedOut log)
    (record : TaskRecord) (older : List RowEvent)
    (hsuffix : (.picked record :: older) <:+ e :: log) :
    record.CountedBy (.picked record :: older) ∧ record.id ∈ handedOut older := by
  rcases List.suffix_cons_iff.1 hsuffix with heq | hsuffix
  · obtain ⟨rfl, rfl⟩ := List.cons.inj heq
    exact he record rfl
  · exact h.picked record older hsuffix

/-- An event of a row that keeps its task. -/
theorem update {r : Row} (hr : r ∈ s.rows) {f : TaskRecord → TaskRecord}
    (hf : ∀ q, Row.SameTask q (changed f q)) {e : RowEvent} (hrow : e.row = r.id)
    (hold : e.handedOut? = none) (hcounted : (changed f r).record.CountedBy (e :: log))
    (he : ∀ record, e = .picked record → record.CountedBy (e :: log) ∧ record.id ∈ handedOut log) :
    Reflects schema (e :: log) (s.update r.id f) := by
  have hhanded : handedOut (e :: log) = handedOut log := List.filterMap_cons_none hold
  refine ⟨h.columns, fun q hq => ?_, fun q hq => ?_, h.picked_cons he, ?_, ?_, ?_⟩
  · obtain ⟨p, hp, rfl⟩ := mem_update.1 hq
    split
    next hid =>
      rw [eq_of_id_eq hp hr hid]
      exact hcounted
    next hid => exact (h.counted p hp).cons_of_ne (hrow ▸ Ne.symm hid)
  · obtain ⟨p, hp, rfl⟩ := mem_update.1 hq
    have hsame : p.SameTask (if p.id = r.id then changed f p else p) := by
      split
      · exact hf p
      · exact .refl p
    obtain ⟨now, l, task, hadded, hp⟩ := h.added p hp
    refine ⟨now, l, task, List.mem_cons_of_mem _ ?_, hp.sameTask hsame⟩
    rwa [hsame.id]
  · rw [hhanded]
    exact h.descending
  · rw [hhanded]
    exact h.bounded
  · rw [hhanded]
    exact h.length

theorem pick (now : Instant) (l : Location) (failure : FailureSettings) :
    Reflects schema ((StoreCall.pick failure).told now l (.ok (s.pick now l failure).1) ++ log)
      (s.pick now l failure).2 := by
  cases hc : s.candidate? now l with
  | none =>
    rw [pick_of_none hc]
    exact h
  | some r =>
    rw [pick_of_some hc]
    have hr := (candidate?_mem hc).1
    have hclaim := (h.counted r hr).claim now failure
    obtain ⟨_, _, _, hadded, -⟩ := h.added r hr
    refine h.update hr (sameTask_claim now failure) rfl rfl hclaim ?_
    rintro _ ⟨⟩
    exact ⟨hclaim, mem_handedOut hadded⟩

theorem reenqueue (now : Instant) (l : Location) (id : Int) (delay : Delay) :
    Reflects schema
      ((StoreCall.reenqueue id delay).told now l (.ok (s.reenqueue now l id delay).1) ++ log)
      (s.reenqueue now l id delay).2 := by
  cases hr : s.row? l id with
  | none =>
    rw [reenqueue_of_none hr]
    exact h
  | some r =>
    rw [reenqueue_of_some hr]
    obtain ⟨hmem, rfl, -⟩ := row?_eq_some_iff.1 hr
    refine h.update hmem (sameTask_putBack now delay) rfl rfl
      ((h.counted r hmem).putBack now delay) ?_
    rintro _ ⟨⟩

theorem delete (l : Location) (id : Int) : Reflects schema log (s.delete l id).2 := by
  unfold Store.delete
  split
  · exact h
  · exact h.keep _

theorem enqueue (now : Instant) (l : Location) (task : NewTask) :
    Reflects schema ((StoreCall.enqueue task).told now l (s.enqueue now l task).1 ++ log)
      (s.enqueue now l task).2 := by
  unfold Store.enqueue
  cases hcolumns : s.schema.resolveExtra task.extra with
  | error e => exact h
  | ok columns =>
    show Reflects schema (.added now l task (s.lastId + 1) :: log) (s.insert now l task columns).2
    -- the identifier is new to all rows and to the history
    have hnew (r : Row) (hr : r ∈ s.rows) : (s.lastId + 1 : Int) ≠ r.id := by
      have := (s.bounded r hr).2
      omega
    have hhanded : handedOut (.added now l task (s.lastId + 1) :: log)
        = (s.lastId + 1 : Int) :: handedOut log := rfl
    refine ⟨h.columns, fun r hr => ?_, fun r hr => ?_, h.picked_cons ?_, ?_, ?_, ?_⟩
    · rcases mem_append.1 hr with hr | rfl
      · exact (h.counted r hr).cons_of_ne (hnew r hr)
      · obtain ⟨hattempts, hreenqueues, htotal⟩ := counts_added now l task (s.lastId + 1) log
        exact ⟨congrArg Count.clamp hattempts.symm, congrArg Count.clamp hreenqueues.symm,
          congrArg Count.clamp htotal.symm⟩
    · rcases mem_append.1 hr with hr | rfl
      · obtain ⟨now', l', task', hadded, hr⟩ := h.added r hr
        exact ⟨now', l', task', List.mem_cons_of_mem _ hadded, hr⟩
      · refine ⟨now, l, task, List.mem_cons_self, Row.isAt_iff.2 ⟨rfl, rfl⟩, rfl, rfl, ?_⟩
        rw [← h.columns]
        exact get?_newColumns hcolumns
    · rintro _ ⟨⟩
    · rw [hhanded]
      refine List.pairwise_cons.2 ⟨fun id hid => ?_, h.descending⟩
      have := (h.bounded id hid).2
      omega
    · rw [hhanded]
      intro id hid
      show 0 < id ∧ id ≤ ((s.lastId + 1 : Nat) : Int)
      rcases List.mem_cons.1 hid with rfl | hid
      · omega
      · have := h.bounded id hid
        omega
    · rw [hhanded, List.length_cons, h.length]
      rfl

/-- A call in a transaction is reflected by what its answer tells. -/
theorem answerIn (now : Instant) (l : Location) (t : Transaction) (c : StoreCall) :
    Reflects schema (c.told now l (c.answerIn now l t s).1 ++ log) (c.answerIn now l t s).2.2 := by
  cases ht : t.completed with
  | true =>
    rw [StoreCall.store_answerIn_of_completed ht]
    have htold : c.told now l (c.answerIn now l t s).1 = [] := by
      obtain ⟨completed⟩ := t
      cases ht
      cases c <;> rfl
    rw [htold]
    exact h
  | false =>
    obtain ⟨hanswer, hstore⟩ := StoreCall.answerIn_of_open ht now l c s
    rw [hanswer, hstore]
    cases c with
    | pick failure => exact h.pick now l failure
    | enqueue task => exact h.enqueue now l task
    | delete id => exact h.delete l id
    | reenqueue id delay => exact h.reenqueue now l id delay
    | begin | commit | release => exact h

omit h in
theorem act {x : SharedStore} (h : Reflects schema log x.store) (a : StoreAct) :
    Reflects schema (x.told a ++ log) (x.act a).store := by
  cases a with
  | call tx time l c => exact h.answerIn time.time l (x.transactions tx) c
  | rollback tx => exact h
  | clear => exact h.keep _

omit h in
theorem run {x : SharedStore} (h : Reflects schema log x.store) (acts : List StoreAct) :
    Reflects schema (x.history acts ++ log) (x.run acts).store := by
  induction acts generalizing x log with
  | nil => exact h
  | cons a acts ih =>
    rw [SharedStore.history, List.append_assoc]
    exact ih (h.act a)

end Reflects

namespace SharedStore

/-- The identifiers of a history are all different, so a row is not added anew. -/
theorem adds_eq_false {log later : List RowEvent} {id : Int}
    (hnodup : (handedOut (later ++ log)).Nodup) (hid : id ∈ handedOut log) :
    ∀ e ∈ later, e.adds id = false := by
  intro e he
  cases e with
  | added now l task i =>
    refine decide_eq_false ?_
    rintro rfl
    rw [handedOut, List.filterMap_append] at hnodup
    obtain ⟨-, -, hdisjoint⟩ := List.nodup_append.1 hnodup
    exact hdisjoint i (mem_handedOut he) i hid rfl
  | picked | putBack => rfl

/-- **Rows reflect their history.** Take a store that was empty, and any acts of any transactions
on it. Each row that is there counts, up to the greatest counter, how often it was picked since it
was last put back or added, how often it was put back, and how often it was picked in all. It was
picked in all no less often than since it was put back, and that number never falls. It is where it
was added, with the payload, the time and the extra values of that call, and its extra columns are
exactly the declared ones. All identifiers that were handed out, to rows that are there and to rows
that were removed, are different, and none is greater than the number of rows that were added. -/
theorem rows_reflect_history (schema : Schema) (acts : List StoreAct) :
    (∀ r ∈ ((fresh schema).run acts).store.rows,
      r.record.CountedBy ((fresh schema).history acts) ∧
      r.record.attempts.val ≤ r.record.totalAttempts.val ∧
      (∀ later, ∀ q ∈ ((fresh schema).run (acts ++ later)).store.rows, q.id = r.id →
        r.record.totalAttempts.val ≤ q.record.totalAttempts.val) ∧
      (∃ now l task, .added now l task r.id ∈ (fresh schema).history acts ∧
        r.AddedBy schema now l task) ∧
      ∀ column, column ∈ r.record.extra.keys ↔ column ∈ schema.extra) ∧
    (handedOut ((fresh schema).history acts)).Nodup ∧
    ∀ id ∈ handedOut ((fresh schema).history acts),
      0 < id ∧ id ≤ (handedOut ((fresh schema).history acts)).length := by
  have hrun (acts : List StoreAct) :
      Reflects schema ((fresh schema).history acts) ((fresh schema).run acts).store := by
    have := (Reflects.empty schema).run (x := fresh schema) acts
    rwa [List.append_nil] at this
  have hnodup (acts : List StoreAct) : (handedOut ((fresh schema).history acts)).Nodup :=
    (hrun acts).descending.imp fun hlt => (Int.ne_of_lt hlt).symm
  refine ⟨fun r hr => ?_, hnodup acts, ?_⟩
  · obtain ⟨now, l, task, hadded, htask⟩ := (hrun acts).added r hr
    have hcounted := (hrun acts).counted r hr
    refine ⟨hcounted, ?_, fun later q hq hid => ?_, ⟨now, l, task, hadded, htask⟩,
      htask.mem_keys_extra_iff⟩
    · rw [hcounted.attempts, hcounted.totalAttempts]
      exact Count.val_clamp_le (attempts_le_totalAttempts _ _)
    · have hlater := hnodup (acts ++ later)
      rw [history_append] at hlater
      have hnot := adds_eq_false hlater (mem_handedOut hadded)
      rw [hcounted.totalAttempts, ((hrun (acts ++ later)).counted q hq).totalAttempts,
        history_append, show q.record.id = r.record.id from hid]
      exact Count.val_clamp_le (totalAttempts_le_append hnot)
  · intro id hid
    rw [(hrun acts).length]
    exact (hrun acts).bounded id hid

/-- The columns of the store below. -/
def tenantColumns : Schema := ({} : Schema).withExtra "tenant"

/-- An order that is added for a tenant after an earlier one was cleared, and that is picked, put
back and picked again an hour later. -/
def retriedOrder : List StoreAct :=
  [.call 0 ⟨.epoch, rfl⟩ orders .begin, .call 0 ⟨.epoch, rfl⟩ orders (.enqueue {}), .clear,
    .call 0 ⟨.epoch, rfl⟩ orders (.enqueue { extra := .ofList [("tenant", "7")] }),
    .call 0 ⟨.epoch, rfl⟩ orders (.pick {}), .call 0 ⟨.epoch, rfl⟩ orders (.reenqueue 2 .zero),
    .call 0 ⟨⟨3600, 0, by decide⟩, rfl⟩ orders (.pick {})]

/-- The order has been attempted once since it was put back, which happened once, and twice in all;
both identifiers are different. -/
theorem retried_order_is_counted :
    ∃ r ∈ ((fresh tenantColumns).run retriedOrder).store.rows,
      r.id = 2 ∧ r.record.attempts.val = 1 ∧ r.record.reenqueueAttempts.val = 1 ∧
      r.record.totalAttempts.val = 2 ∧ "tenant" ∈ r.record.extra.keys ∧
      handedOut ((fresh tenantColumns).history retriedOrder) = [2, 1] := by
  obtain ⟨hrows, -⟩ := rows_reflect_history tenantColumns retriedOrder
  obtain ⟨a, b, hhistory, ha, hb⟩ : ∃ a b, (fresh tenantColumns).history retriedOrder
      = [.picked a, .putBack 2, .picked b,
        .added .epoch orders { extra := .ofList [("tenant", "7")] } 2,
        .added .epoch orders {} 1] ∧ a.id = 2 ∧ b.id = 2 := ⟨_, _, rfl, rfl, rfl⟩
  obtain ⟨r, hr, hid⟩ : ∃ r, ((fresh tenantColumns).run retriedOrder).store.rows = [r] ∧
      r.record.id = 2 := ⟨_, rfl, rfl⟩
  have hmem : r ∈ ((fresh tenantColumns).run retriedOrder).store.rows := by
    rw [hr]
    exact List.mem_singleton_self r
  obtain ⟨hcounted, -, -, -, hcolumns⟩ := hrows r hmem
  rw [hhistory] at hcounted
  refine ⟨r, hmem, hid, ?_, ?_, ?_, (hcolumns "tenant").2 (by decide +kernel), ?_⟩
  · rw [hcounted.attempts, hid]
    simp [attempts, History.round, life, RowEvent.adds, RowEvent.picks, RowEvent.putsBack, ha,
      Decimal.max32]
  · rw [hcounted.reenqueueAttempts, hid]
    simp [reenqueues, life, RowEvent.adds, RowEvent.putsBack, Decimal.max32]
  · rw [hcounted.totalAttempts, hid]
    simp [totalAttempts, life, RowEvent.adds, RowEvent.picks, ha, hb, Decimal.max32]
  · rw [hhistory]
    rfl

end SharedStore

end DurableQueue
