import DurableQueue.Store.Transaction
import DurableQueue.Proofs.Time.Order
import Mathlib.Data.List.Basic

/-!
# The rows of a store

What the operations of a store do to its rows.

* `eq_of_id_eq`: rows of a store are told apart by their identifiers;
* `row?_eq_some_iff` and `candidate?_mem` say which rows are found;
* `mem_update`, `mem_keep` and `mem_append` say which rows there are after a change, and
  `pick_of_some`, `delete_of_some`, `reenqueue_of_some` and `enqueue_cases` which change an
  operation makes;
* `Row.SameTask` relates two rows of one task, which differ at most in their counters and in their
  visibility. Claiming a row and putting it back keep its task.
-/

namespace DurableQueue

namespace Row

/-- Rows of the same task in the same place. -/
structure SameTask (a b : Row) : Prop where
  id : b.id = a.id
  table : b.table = a.table
  queue : b.queue = a.queue
  payload : b.record.payload = a.record.payload
  createdAt : b.record.createdAt = a.record.createdAt
  extra : b.record.extra = a.record.extra

theorem SameTask.refl (a : Row) : a.SameTask a := ⟨rfl, rfl, rfl, rfl, rfl, rfl⟩

theorem SameTask.trans {a b c : Row} (h : a.SameTask b) (h' : b.SameTask c) : a.SameTask c :=
  ⟨h'.id.trans h.id, h'.table.trans h.table, h'.queue.trans h.queue, h'.payload.trans h.payload,
    h'.createdAt.trans h.createdAt, h'.extra.trans h.extra⟩

theorem isAt_iff {r : Row} {l : Location} :
    r.isAt l = true ↔ r.table = l.table ∧ r.queue = l.queue := by
  simp [isAt]

theorem SameTask.isAt {a b : Row} (h : a.SameTask b) (l : Location) : b.isAt l = a.isAt l := by
  simp [Row.isAt, h.table, h.queue]

end Row

namespace Store

variable {s : Store} {l : Location} {id : Int} {now : Instant}

/-- Rows with one identifier are one row. -/
theorem eq_of_id_eq {a b : Row} (ha : a ∈ s.rows) (hb : b ∈ s.rows) (h : a.id = b.id) : a = b := by
  by_contra hne
  -- of two positions the later one has the greater identifier
  have hp := List.pairwise_iff_getElem.1 s.ascending
  obtain ⟨i, hi, rfl⟩ := List.getElem_of_mem ha
  obtain ⟨j, hj, rfl⟩ := List.getElem_of_mem hb
  rcases Nat.lt_trichotomy i j with hij | rfl | hij
  · have := hp i j hi hj hij
    omega
  · exact hne rfl
  · have := hp j i hj hi hij
    omega

/-! ### Looking at rows -/

theorem row?_eq_some_iff {r : Row} :
    s.row? l id = some r ↔ r ∈ s.rows ∧ r.id = id ∧ r.isAt l = true := by
  constructor
  · intro h
    have hp := List.find?_some h
    simp only [Bool.and_eq_true, decide_eq_true_eq] at hp
    exact ⟨List.mem_of_find?_eq_some h, hp⟩
  · rintro ⟨hr, hid, hat⟩
    cases hf : s.row? l id with
    | none =>
      have := List.find?_eq_none.1 hf r hr
      simp [hid, hat] at this
    | some q =>
      have hp := List.find?_some hf
      simp only [Bool.and_eq_true, decide_eq_true_eq] at hp
      rw [eq_of_id_eq (List.mem_of_find?_eq_some hf) hr (hp.1.trans hid.symm)]

theorem mem_of_oldest? {rs : List Row} {r : Row} (h : oldest? rs = some r) : r ∈ rs := by
  induction rs with
  | nil => cases h
  | cons q qs ih =>
    simp only [oldest?] at h
    split at h
    · cases h; simp
    next b hb =>
      split at h
      · cases h; exact List.mem_cons_of_mem _ (ih hb)
      · cases h; simp

/-- The row to be picked is a visible row of the queue. -/
theorem candidate?_mem {r : Row} (h : s.candidate? now l = some r) :
    r ∈ s.rows ∧ r.isAt l = true ∧ r.record.nextProcessAt ≤ now := by
  have hm := List.mem_filter.1 (mem_of_oldest? h)
  simp only [Bool.and_eq_true] at hm
  exact hm

/-- The row to be picked is the one that its identifier finds. -/
theorem row?_of_candidate? {r : Row} (h : s.candidate? now l = some r) :
    s.row? l r.id = some r := by
  obtain ⟨hr, hat, -⟩ := candidate?_mem h
  exact row?_eq_some_iff.2 ⟨hr, rfl, hat⟩

theorem get?_of_candidate? {r : Row} (h : s.candidate? now l = some r) :
    s.get? l r.id = some r.record := by
  rw [get?, row?_of_candidate? h, Option.map_some]

/-! ### Changing rows -/

theorem mem_update {f : TaskRecord → TaskRecord} {r : Row} :
    r ∈ (s.update id f).rows ↔ ∃ q ∈ s.rows, r = if q.id = id then changed f q else q := by
  simp only [update, List.mem_map, eq_comm]

theorem mem_keep {p : Row → Bool} {r : Row} : r ∈ (s.keep p).rows ↔ r ∈ s.rows ∧ p r = true :=
  List.mem_filter

theorem mem_append {table : String} {queue : QueueId} {f : Int → TaskRecord} {r : Row} :
    r ∈ (s.append table queue f).rows ↔
      r ∈ s.rows ∨ r = ⟨table, queue, { f (s.lastId + 1) with id := s.lastId + 1 }⟩ := by
  simp [append]

/-- In place of a row that was changed there is the changed row. -/
theorem eq_changed_of_mem_update {f : TaskRecord → TaskRecord} {r q : Row} (hr : r ∈ s.rows)
    (hq : q ∈ (s.update r.id f).rows) (hid : q.id = r.id) : q = changed f r := by
  obtain ⟨p, hp, rfl⟩ := mem_update.1 hq
  split at hid
  next hpr => rw [if_pos hpr, eq_of_id_eq hp hr hpr]
  next hpr => exact absurd hid hpr

@[simp] theorem lastId_update (f : TaskRecord → TaskRecord) : (s.update id f).lastId = s.lastId :=
  rfl

@[simp] theorem schema_update (f : TaskRecord → TaskRecord) : (s.update id f).schema = s.schema :=
  rfl

/-! ### Replacing one row -/

/-- The rows with the one of an identifier replaced, or removed. -/
def replaced (rows : List Row) (id : Int) (row : Option Row) : List Row :=
  rows.filterMap fun q => if q.id = id then row else some q

theorem rows_update {r : Row} (hr : r ∈ s.rows) (f : TaskRecord → TaskRecord) :
    (s.update r.id f).rows = replaced s.rows r.id (some (changed f r)) := by
  show s.rows.map (fun q => if q.id = r.id then changed f q else q) = replaced s.rows r.id _
  rw [← List.filterMap_eq_map]
  refine List.filterMap_congr fun q hq => ?_
  by_cases h : q.id = r.id
  · simp [eq_of_id_eq hq hr h]
  · simp [h]

theorem rows_keep_ne (s : Store) (id : Int) :
    (s.keep fun q => q.id ≠ id).rows = replaced s.rows id none := by
  show s.rows.filter (fun q => q.id ≠ id) = replaced s.rows id none
  rw [← List.filterMap_eq_filter]
  refine List.filterMap_congr fun q _ => ?_
  by_cases h : q.id = id <;> simp [h, Option.guard]

/-- A row that replaces another one may be replaced in turn. -/
theorem replaced_replaced (rows : List Row) {r : Row} (row : Option Row) (h : r.id = id) :
    replaced (replaced rows id (some r)) id row = replaced rows id row := by
  unfold replaced
  rw [List.filterMap_filterMap]
  refine List.filterMap_congr fun q _ => ?_
  by_cases hq : q.id = id <;> simp [hq, h]

/-! ### The operations of a queue -/

theorem pick_of_some {r : Row} (h : s.candidate? now l = some r) (failure : FailureSettings) :
    s.pick now l failure
      = (some (claim now failure r.record), s.update r.id (claim now failure)) := by
  simp [pick, h]

theorem pick_of_none (h : s.candidate? now l = none) (failure : FailureSettings) :
    s.pick now l failure = (none, s) := by
  simp [pick, h]

theorem delete_of_some {r : Row} (h : s.row? l id = some r) :
    s.delete l id = (true, s.keep fun r => r.id ≠ id) := by
  simp [delete, h]

theorem delete_of_none (h : s.row? l id = none) : s.delete l id = (false, s) := by
  simp [delete, h]

theorem reenqueue_of_some {r : Row} (h : s.row? l id = some r) (delay : Delay) :
    s.reenqueue now l id delay = (true, s.update id (putBack now delay)) := by
  simp [reenqueue, h]

theorem reenqueue_of_none (h : s.row? l id = none) (delay : Delay) :
    s.reenqueue now l id delay = (false, s) := by
  simp [reenqueue, h]

/-- An accepted task gets the next identifier; a refused one changes nothing. -/
theorem enqueue_cases (s : Store) (now : Instant) (l : Location) (task : NewTask) :
    (∃ e, s.enqueue now l task = (.error e, s)) ∨
    (∃ columns, s.enqueue now l task
      = (.ok (s.lastId + 1), (s.insert now l task columns).2)) := by
  unfold enqueue
  split
  next e _ => exact Or.inl ⟨e, rfl⟩
  next columns _ => exact Or.inr ⟨columns, rfl⟩

@[simp] theorem lastId_pick (s : Store) (now : Instant) (l : Location) (failure : FailureSettings) :
    (s.pick now l failure).2.lastId = s.lastId := by
  unfold pick
  split <;> rfl

@[simp] theorem lastId_delete (s : Store) (l : Location) (id : Int) :
    (s.delete l id).2.lastId = s.lastId := by
  unfold delete
  split <;> rfl

@[simp] theorem lastId_reenqueue (s : Store) (now : Instant) (l : Location) (id : Int)
    (delay : Delay) : (s.reenqueue now l id delay).2.lastId = s.lastId := by
  unfold reenqueue
  split <;> rfl

@[simp] theorem schema_delete (s : Store) (l : Location) (id : Int) :
    (s.delete l id).2.schema = s.schema := by
  unfold delete
  split <;> rfl

@[simp] theorem schema_reenqueue (s : Store) (now : Instant) (l : Location) (id : Int)
    (delay : Delay) : (s.reenqueue now l id delay).2.schema = s.schema := by
  unfold reenqueue
  split <;> rfl

theorem lastId_enqueue (s : Store) (now : Instant) (l : Location) (task : NewTask) :
    s.lastId ≤ (s.enqueue now l task).2.lastId := by
  rcases s.enqueue_cases now l task with ⟨e, he⟩ | ⟨columns, he⟩
  · exact Nat.le_of_eq (by rw [he])
  · rw [he]
    exact Nat.le_succ _

/-! ### Where rows come from -/

theorem mem_pick {failure : FailureSettings} {q : Row} (hq : q ∈ (s.pick now l failure).2.rows) :
    q ∈ s.rows ∨ ∃ r, s.candidate? now l = some r ∧ q = changed (claim now failure) r := by
  cases hc : s.candidate? now l with
  | none =>
    rw [pick_of_none hc] at hq
    exact Or.inl hq
  | some r =>
    rw [pick_of_some hc] at hq
    obtain ⟨p, hp, rfl⟩ := mem_update.1 hq
    split
    next hid => exact Or.inr ⟨r, rfl, by rw [eq_of_id_eq hp (candidate?_mem hc).1 hid]⟩
    next => exact Or.inl hp

theorem mem_delete {q : Row} (hq : q ∈ (s.delete l id).2.rows) : q ∈ s.rows := by
  cases hr : s.row? l id with
  | none => rwa [delete_of_none hr] at hq
  | some r =>
    rw [delete_of_some hr] at hq
    exact (mem_keep.1 hq).1

theorem mem_reenqueue {delay : Delay} {q : Row} (hq : q ∈ (s.reenqueue now l id delay).2.rows) :
    q ∈ s.rows ∨ ∃ r, s.row? l id = some r ∧ q = changed (putBack now delay) r := by
  cases hr : s.row? l id with
  | none =>
    rw [reenqueue_of_none hr] at hq
    exact Or.inl hq
  | some r =>
    rw [reenqueue_of_some hr] at hq
    obtain ⟨hm, hrid, -⟩ := row?_eq_some_iff.1 hr
    obtain ⟨p, hp, rfl⟩ := mem_update.1 hq
    split
    next hid => exact Or.inr ⟨r, rfl, by rw [eq_of_id_eq hp hm (hid.trans hrid.symm)]⟩
    next => exact Or.inl hp

theorem mem_insert {task : NewTask} {columns : List (String × String)} {q : Row}
    (hq : q ∈ (s.insert now l task columns).2.rows) : q ∈ s.rows ∨ q.id = s.lastId + 1 := by
  rcases mem_append.1 hq with hq | rfl
  · exact Or.inl hq
  · exact Or.inr rfl

theorem mem_enqueue {task : NewTask} {q : Row} (hq : q ∈ (s.enqueue now l task).2.rows) :
    q ∈ s.rows ∨ q.id = s.lastId + 1 := by
  rcases s.enqueue_cases now l task with ⟨e, he⟩ | ⟨columns, he⟩
  · rw [he] at hq
    exact Or.inl hq
  · rw [he] at hq
    exact mem_insert hq

/-! ### Rows of one task -/

theorem sameTask_claim (now : Instant) (failure : FailureSettings) (r : Row) :
    r.SameTask (changed (claim now failure) r) := ⟨rfl, rfl, rfl, rfl, rfl, rfl⟩

theorem sameTask_putBack (now : Instant) (delay : Delay) (r : Row) :
    r.SameTask (changed (putBack now delay) r) := ⟨rfl, rfl, rfl, rfl, rfl, rfl⟩

/-- A change that keeps tasks leaves every row in the store. -/
theorem exists_sameTask_update {f : TaskRecord → TaskRecord} {r : Row}
    (hf : ∀ q, Row.SameTask q (changed f q)) (hr : r ∈ s.rows) :
    ∃ q ∈ (s.update id f).rows, r.SameTask q := by
  refine ⟨if r.id = id then changed f r else r, mem_update.2 ⟨r, hr, rfl⟩, ?_⟩
  split
  · exact hf r
  · exact .refl r

theorem exists_sameTask_pick {r : Row} (hr : r ∈ s.rows) (now : Instant) (l : Location)
    (failure : FailureSettings) : ∃ q ∈ (s.pick now l failure).2.rows, r.SameTask q := by
  cases hc : s.candidate? now l with
  | none => exact ⟨r, by rwa [pick_of_none hc], .refl r⟩
  | some c =>
    rw [pick_of_some hc]
    exact exists_sameTask_update (sameTask_claim now failure) hr

theorem exists_sameTask_reenqueue {r : Row} (hr : r ∈ s.rows) (now : Instant) (l : Location)
    (id : Int) (delay : Delay) :
    ∃ q ∈ (s.reenqueue now l id delay).2.rows, r.SameTask q := by
  cases hc : s.row? l id with
  | none => exact ⟨r, by rwa [reenqueue_of_none hc], .refl r⟩
  | some c =>
    rw [reenqueue_of_some hc]
    exact exists_sameTask_update (sameTask_putBack now delay) hr

theorem exists_sameTask_enqueue {r : Row} (hr : r ∈ s.rows) (now : Instant) (l : Location)
    (task : NewTask) : ∃ q ∈ (s.enqueue now l task).2.rows, r.SameTask q := by
  refine ⟨r, ?_, .refl r⟩
  rcases s.enqueue_cases now l task with ⟨e, he⟩ | ⟨columns, he⟩
  · rwa [he]
  · rw [he]
    exact mem_append.2 (Or.inl hr)

/-- A row is deleted by its own identifier in its own place only. -/
theorem mem_delete_of_ne {r : Row} (hr : r ∈ s.rows) (h : ¬ (r.id = id ∧ r.isAt l = true)) :
    r ∈ (s.delete l id).2.rows := by
  cases hc : s.row? l id with
  | none => rwa [delete_of_none hc]
  | some c =>
    rw [delete_of_some hc]
    obtain ⟨hm, hid, hat⟩ := row?_eq_some_iff.1 hc
    refine mem_keep.2 ⟨hr, ?_⟩
    rw [decide_eq_true_eq]
    intro hrid
    exact h ⟨hrid, by rwa [eq_of_id_eq hr hm (hrid.trans hid.symm)]⟩

end Store

namespace StoreCall

open Store

/-- A call in a completed transaction leaves the store alone. -/
theorem store_answerIn_of_completed {t : Transaction} (h : t.completed = true) (now : Instant)
    (l : Location) (c : StoreCall) (s : Store) : (c.answerIn now l t s).2.2 = s := by
  obtain ⟨b⟩ := t
  cases h
  cases c <;> rfl

/-- A call in an open transaction is a call of the store. -/
theorem answerIn_of_open {t : Transaction} (h : t.completed = false) (now : Instant) (l : Location)
    (c : StoreCall) (s : Store) :
    (c.answerIn now l t s).1 = (c.answer now l s).1 ∧
      (c.answerIn now l t s).2.2 = (c.answer now l s).2 := by
  obtain ⟨b⟩ := t
  cases h
  exact Prod.mk.inj (answerIn_opened now l c s)

theorem lastId_answerIn (now : Instant) (l : Location) (t : Transaction) (c : StoreCall)
    (s : Store) : s.lastId ≤ (c.answerIn now l t s).2.2.lastId := by
  cases ht : t.completed with
  | true =>
    exact Nat.le_of_eq (by rw [store_answerIn_of_completed ht])
  | false =>
    rw [(answerIn_of_open ht now l c s).2]
    cases c with
    | pick failure => exact Nat.le_of_eq (s.lastId_pick now l failure).symm
    | enqueue task => exact s.lastId_enqueue now l task
    | delete id => exact Nat.le_of_eq (s.lastId_delete l id).symm
    | reenqueue id delay => exact Nat.le_of_eq (s.lastId_reenqueue now l id delay).symm
    | _ => exact Nat.le_refl _

/-- A call leaves every task in the store, but for the one that it deletes. -/
theorem exists_sameTask_answerIn {r : Row} {s : Store} (hr : r ∈ s.rows) (now : Instant)
    (l : Location) (t : Transaction) (c : StoreCall) :
    (∃ q ∈ (c.answerIn now l t s).2.2.rows, r.SameTask q) ∨ c = .delete r.id ∧ r.isAt l = true := by
  cases ht : t.completed with
  | true =>
    rw [store_answerIn_of_completed ht]
    exact .inl ⟨r, hr, .refl r⟩
  | false =>
    rw [(answerIn_of_open ht now l c s).2]
    cases c with
    | pick failure => exact .inl (exists_sameTask_pick hr now l failure)
    | enqueue task => exact .inl (exists_sameTask_enqueue hr now l task)
    | reenqueue id delay => exact .inl (exists_sameTask_reenqueue hr now l id delay)
    | delete id =>
      by_cases h : r.id = id ∧ r.isAt l = true
      · exact .inr ⟨by rw [h.1], h.2⟩
      · exact .inl ⟨r, mem_delete_of_ne hr h, .refl r⟩
    | _ => exact .inl ⟨r, hr, .refl r⟩

/-- A pick returns a task that is in the store. -/
theorem id_le_lastId_of_pick {s : Store} {now : Instant} {l : Location} {t : Transaction}
    {failure : FailureSettings} {record : TaskRecord}
    (h : (answerIn now l (.pick failure) t s).1 = .ok (some record)) : record.id ≤ s.lastId := by
  have hcall : (t.pick now l failure s).1 = .ok (some record) := h
  have hopen := Transaction.open_of_whenOpen hcall
  have hpick : (s.pick now l failure).1 = some record :=
    Except.ok.inj ((answerIn_of_open hopen now l (.pick failure) s).1.symm.trans h)
  cases hc : s.candidate? now l with
  | none =>
    rw [pick_of_none hc] at hpick
    cases hpick
  | some r =>
    rw [pick_of_some hc] at hpick
    cases hpick
    exact (s.bounded r (candidate?_mem hc).1).2

/-- An accepted task gets a new identifier, and its row is added with some columns. -/
theorem exists_columns_of_enqueue {s : Store} {now : Instant} {l : Location} {t : Transaction}
    {task : NewTask} {id : Int} (h : (answerIn now l (.enqueue task) t s).1 = .ok id) :
    ∃ columns, id = s.lastId + 1 ∧
      (answerIn now l (.enqueue task) t s).2.2 = (s.insert now l task columns).2 := by
  have hcall : (t.enqueue now l task s).1 = .ok id := h
  have hopen := Transaction.open_of_whenOpen hcall
  obtain ⟨hanswer, hstore⟩ := answerIn_of_open hopen now l (.enqueue task) s
  have henqueue : (s.enqueue now l task).1 = .ok id := hanswer.symm.trans h
  have hafter : _ = (s.enqueue now l task).2 := hstore
  rcases s.enqueue_cases now l task with ⟨e, he⟩ | ⟨columns, he⟩
  · rw [he] at henqueue
    cases henqueue
  · rw [he] at henqueue hafter
    exact ⟨columns, (Except.ok.inj henqueue).symm, hafter⟩

/-- An accepted task gets a new identifier. -/
theorem id_eq_of_enqueue {s : Store} {now : Instant} {l : Location} {t : Transaction}
    {task : NewTask} {id : Int} (h : (answerIn now l (.enqueue task) t s).1 = .ok id) :
    id = s.lastId + 1 := by
  obtain ⟨-, hid, -⟩ := exists_columns_of_enqueue h
  exact hid

/-- An accepted task is in the store, under its identifier and in its place, and hidden for its
delay. -/
theorem exists_row_of_enqueue {s : Store} {now : Instant} {l : Location} {t : Transaction}
    {task : NewTask} {id : Int} (h : (answerIn now l (.enqueue task) t s).1 = .ok id) :
    ∃ r, (answerIn now l (.enqueue task) t s).2.2.row? l id = some r ∧
      r.record.nextProcessAt = now.shift task.delay := by
  obtain ⟨columns, rfl, hstore⟩ := exists_columns_of_enqueue h
  rw [hstore]
  refine ⟨_, row?_eq_some_iff.2 ⟨mem_append.2 (.inr rfl), rfl, ?_⟩, rfl⟩
  exact Row.isAt_iff.2 ⟨rfl, rfl⟩

end StoreCall

end DurableQueue
