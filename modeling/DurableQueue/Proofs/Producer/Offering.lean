import DurableQueue.Producer
import DurableQueue.Proofs.Program.Monitor
import DurableQueue.Proofs.Store.Columns
import DurableQueue.Proofs.Store.Completion
import DurableQueue.Proofs.Worker.Report
import Mathlib.Logic.Function.Basic

/-!
# A producer and its shards

What becomes of an order that is given to a producer, with in-memory stores on all shards and with
calls that may fail.

* `Shards` is what a producer meets, `Chance` what is left open, and `Shards.answer` answers a
  call;
* `Row.HoldsOrder` compares a row with the order that it was added for, and `Gained` says that a
  shard has got one more row and everything else is as it was;
* `Shards.offer` runs a producer, and `OfferEnds` lists the ways in which that may end, each with
  the calls that were made;
* `offer_ends` is the main statement: every run ends in one of these ways.
-/

namespace DurableQueue

open Identifier Store

variable {π : Type}

/-! ### Shards -/

/-- The stores of shards, the transaction that was last begun on each of them, and the calls that
were made, with their answers. -/
structure Shards where
  stores : ShardId → Store
  transactions : ShardId → Transaction := fun _ => ⟨true⟩
  log : List (Exchange ShardCalls) := []

/-- What is left to chance, by the number of calls that were made before: the time that the row
clock shows, and whether the next call fails instead of reaching its store. -/
structure Chance where
  time : Nat → Instant
  fault : Nat → Option StoreError := fun _ => none

namespace Shards

/-- A call reaches its store. -/
def reach (x : Shards) (time : Instant) (l : Location) (r : ShardCall) : r.call.Answer × Shards :=
  let (answer, t, s) := r.call.answerIn time l (x.transactions r.shard) (x.stores r.shard)
  (answer, { x with
    stores := Function.update x.stores r.shard s
    transactions := Function.update x.transactions r.shard t })

/-- Note a call and its answer. -/
def note (x : Shards) (r : ShardCall) (answer : r.call.Answer) : Shards :=
  { x with log := x.log ++ [⟨r, answer⟩] }

/-- Answer a call. -/
def answer (chance : Chance) (l : Location) (r : ShardCall) (x : Shards) :
    r.call.Answer × Shards :=
  match chance.fault x.log.length with
  | some e => (r.call.failure e, x.note r (r.call.failure e))
  | none =>
    let (answer, y) := x.reach (chance.time x.log.length) l r
    (answer, y.note r answer)

variable {chance : Chance} {l : Location} {x : Shards} {r : ShardCall}

theorem answer_of_fault {e : StoreError} (h : chance.fault x.log.length = some e) :
    answer chance l r x = (r.call.failure e, x.note r (r.call.failure e)) := by
  simp [answer, h]

theorem answer_of_reach {a : r.call.Answer} {y : Shards} (h : chance.fault x.log.length = none)
    (hreach : x.reach (chance.time x.log.length) l r = (a, y)) :
    answer chance l r x = (a, y.note r a) := by
  simp [answer, h, hreach]

/-- A call that leaves its transaction and its store as they are leaves the shards as they are. -/
theorem reach_of_same {time : Instant} {a : r.call.Answer}
    (h : r.call.answerIn time l (x.transactions r.shard) (x.stores r.shard)
      = (a, x.transactions r.shard, x.stores r.shard)) : x.reach time l r = (a, x) := by
  simp [reach, h]

/-- Giving a transaction up changes nothing. -/
theorem answer_release (shard : ShardId) :
    answer chance l ⟨shard, .release⟩ x = ((), x.note ⟨shard, .release⟩ ()) := by
  cases h : chance.fault x.log.length with
  | some e => exact answer_of_fault h
  | none => exact answer_of_reach h (reach_of_same rfl)

/-- The shards before any call. -/
def before (stores : ShardId → Store) : Shards := { stores }

/-- The shards after a transaction was begun on one of them. -/
def begun (stores : ShardId → Store) (shard : ShardId) : Shards where
  stores
  transactions := Function.update (fun _ => ⟨true⟩) shard .opened
  log := [⟨⟨shard, .begin⟩, .ok ()⟩]

/-- The shards after a task was added on one of them. -/
def added (stores : ShardId → Store) (shard : ShardId) (task : NewTask) (id : Int) (s : Store) :
    Shards where
  stores := Function.update stores shard s
  transactions := Function.update (fun _ => ⟨true⟩) shard .opened
  log := [⟨⟨shard, .begin⟩, .ok ()⟩, ⟨⟨shard, .enqueue task⟩, .ok id⟩]

variable {stores : ShardId → Store} {shard : ShardId} {task : NewTask} {e : StoreError}

theorem answer_begin (h : chance.fault 0 = none) :
    answer chance l ⟨shard, .begin⟩ (before stores) = (.ok (), begun stores shard) := by
  have hreach : (before stores).reach (chance.time 0) l ⟨shard, .begin⟩
      = (.ok (), { begun stores shard with log := [] }) := by
    simp [reach, StoreCall.answerIn, before, begun]
  exact answer_of_reach h hreach

/-- A row is not added when the call fails, or when its extra columns are not declared. -/
theorem answer_enqueue_of_error (h : chance.fault 1 = some e ∨
    chance.fault 1 = none ∧ (stores shard).schema.resolveExtra task.extra = .error e) :
    answer chance l ⟨shard, .enqueue task⟩ (begun stores shard)
      = (.error e, (begun stores shard).note ⟨shard, .enqueue task⟩ (.error e)) := by
  rcases h with h | ⟨h, hcolumns⟩
  · exact answer_of_fault h
  · refine answer_of_reach h (reach_of_same ?_)
    simp [StoreCall.answerIn, begun, Transaction.enqueue, Transaction.whenOpen,
      Transaction.opened, Store.enqueue, hcolumns]

theorem answer_enqueue (h : chance.fault 1 = none) {columns : List (String × String)}
    (hcolumns : (stores shard).schema.resolveExtra task.extra = .ok columns) :
    answer chance l ⟨shard, .enqueue task⟩ (begun stores shard)
      = (.ok ((stores shard).lastId + 1), added stores shard task ((stores shard).lastId + 1)
          ((stores shard).insert (chance.time 1) l task columns).2) := by
  have hreach : (begun stores shard).reach (chance.time 1) l ⟨shard, .enqueue task⟩
      = (.ok ((stores shard).lastId + 1), { added stores shard task ((stores shard).lastId + 1)
          ((stores shard).insert (chance.time 1) l task columns).2 with
          log := [⟨⟨shard, .begin⟩, .ok ()⟩] }) := by
    simp [reach, StoreCall.answerIn, begun, added, Transaction.enqueue, Transaction.whenOpen,
      Transaction.opened, Store.enqueue, Store.insert, hcolumns]
  exact answer_of_reach h hreach

theorem answer_commit (h : chance.fault 2 = none) {id : Int} {s : Store} :
    answer chance l ⟨shard, .commit⟩ (added stores shard task id s)
      = (.ok (), note { added stores shard task id s with transactions := fun _ => ⟨true⟩ }
          ⟨shard, .commit⟩ (.ok ())) := by
  refine answer_of_reach h ?_
  simp [reach, StoreCall.answerIn, added, Transaction.complete, Transaction.opened]

/-! ### Adding a row -/

theorem run_insert_of_notBegun (h : chance.fault 0 = some e) :
    (Producer.insert shard task).run (answer chance l) (before stores)
      = (.error e, (before stores).note ⟨shard, .begin⟩ (.error e)) := by
  simp [Producer.insert, Producer.ask, Program.run, answer_of_fault (x := before stores) h,
    StoreCall.failure]

theorem run_insert_of_notAdded (hbegin : chance.fault 0 = none)
    (hadd : chance.fault 1 = some e ∨
      chance.fault 1 = none ∧ (stores shard).schema.resolveExtra task.extra = .error e) :
    (Producer.insert shard task).run (answer chance l) (before stores)
      = (.error e, ((begun stores shard).note ⟨shard, .enqueue task⟩ (.error e)).note
          ⟨shard, .release⟩ ()) := by
  simp [Producer.insert, Producer.ask, Program.run, answer_begin hbegin,
    answer_enqueue_of_error hadd, answer_release]

section

variable {columns : List (String × String)} (hbegin : chance.fault 0 = none)
  (hadd : chance.fault 1 = none)
  (hcolumns : (stores shard).schema.resolveExtra task.extra = .ok columns)

include hbegin hadd hcolumns

theorem run_insert_of_notCommitted (hcommit : chance.fault 2 = some e) :
    (Producer.insert shard task).run (answer chance l) (before stores)
      = (.error e, (added stores shard task ((stores shard).lastId + 1)
          ((stores shard).insert (chance.time 1) l task columns).2).note
          ⟨shard, .commit⟩ (.error e)) := by
  simp [Producer.insert, Producer.ask, Program.run, answer_begin hbegin,
    answer_enqueue hadd hcolumns, answer_of_fault (x := added _ _ _ _ _) hcommit, StoreCall.failure]

theorem run_insert_of_committed (hcommit : chance.fault 2 = none) :
    (Producer.insert shard task).run (answer chance l) (before stores)
      = (.ok ((stores shard).lastId + 1), note
          { added stores shard task ((stores shard).lastId + 1)
              ((stores shard).insert (chance.time 1) l task columns).2 with
            transactions := fun _ => ⟨true⟩ }
          ⟨shard, .commit⟩ (.ok ())) := by
  simp [Producer.insert, Producer.ask, Program.run, answer_begin hbegin,
    answer_enqueue hadd hcolumns, answer_commit hcommit]

end

end Shards

/-! ### The row of an order -/

/-- A row as it is added for an order whose payload was encoded: it has not been attempted, it is
hidden for the delay of the order, and of the declared columns those that the order names have the
values that it gives. -/
structure Row.HoldsOrder (schema : Schema) (now : Instant) (l : Location) (order : Order π)
    (payload : Option String) (r : Row) : Prop where
  place : r.isAt l = true
  payload : r.record.payload = payload
  attempts : r.record.attempts = .zero
  reenqueueAttempts : r.record.reenqueueAttempts = .zero
  totalAttempts : r.record.totalAttempts = .zero
  createdAt : r.record.createdAt = now
  nextProcessAt : r.record.nextProcessAt = now.shift order.delay
  columns : ∀ column, column ∈ r.record.extra.keys ↔ column ∈ schema.extra
  given : ∀ key value, order.extra.get? key = some value →
    r.record.extra.get? (columnName key) = some (some value)
  empty : ∀ column ∈ schema.extra, column ∉ order.extra.keys.map columnName →
    r.record.extra.get? column = some none

/-- A shard has got one more row, under the next identifier, and all else is as it was. -/
structure Gained (stores : ShardId → Store) (shard : ShardId) (row : Row)
    (after : ShardId → Store) : Prop where
  rows : (after shard).rows = (stores shard).rows ++ [row]
  id : row.id = (stores shard).lastId + 1
  lastId : (after shard).lastId = (stores shard).lastId + 1
  schema : (after shard).schema = (stores shard).schema
  others : ∀ other, other ≠ shard → after other = stores other

section

variable {s : Store} {stores : ShardId → Store} {shard : ShardId} {order : Order π}
  {columns : List (String × String)} (now : Instant) (l : Location)

theorem holdsOrder_newRow (payload : Option String) (id : Int)
    (hdistinct : (order.extra.keys.map columnName).Nodup)
    (hcolumns : s.schema.resolveExtra order.extra = .ok columns) :
    (s.newRow now l ⟨payload, order.delay, order.extra⟩ columns id).HoldsOrder s.schema now l order
      payload := by
  have hadded : (s.newRow now l ⟨payload, order.delay, order.extra⟩ columns id).AddedBy s.schema now
      l ⟨payload, order.delay, order.extra⟩ :=
    ⟨Row.isAt_iff.2 ⟨rfl, rfl⟩, rfl, rfl, get?_newColumns hcolumns⟩
  have hapart : NewTask.KeysApart ⟨payload, order.delay, order.extra⟩ :=
    NewTask.nodup_map_columnName_iff.1 hdistinct
  refine ⟨hadded.place, rfl, rfl, rfl, rfl, rfl, rfl, hadded.mem_keys_extra_iff,
    fun key value hvalue => ?_, fun column hcolumn hnot => ?_⟩
  · exact (keeps_values_iff hcolumns).2 hapart.agree key value hvalue
  · rw [hadded.extra, if_pos hcolumn]
    exact congrArg some (NewTask.value?_eq_none hnot)

/-- Adding a row on a shard adds nothing else. -/
theorem gained_insert (task : NewTask) :
    Gained stores shard ((stores shard).newRow now l task columns ((stores shard).lastId + 1))
      (Function.update stores shard ((stores shard).insert now l task columns).2) where
  rows := by rw [Function.update_self, rows_insert]
  id := rfl
  lastId := by rw [Function.update_self]; rfl
  schema := by rw [Function.update_self]; rfl
  others other hother := Function.update_of_ne hother _ _

end

/-! ### The end of a run -/

section

variable (transformer : Transformer π) (route : Route π) (order : Order π) (l : Location)
  (chance : Chance) (stores : ShardId → Store)

/-- Run a producer. -/
def Shards.offer : Except ProducerError (ShardId × Int) × Shards :=
  (produce transformer route order).run (answer chance l) (before stores)

/-- How the run of a producer ends: what it returns, what the shards hold then, and the calls it has
made. -/
inductive OfferEnds :
    Except ProducerError (ShardId × Int) → (ShardId → Store) → List (Exchange ShardCalls) → Prop
  /-- The payload cannot be encoded. -/
  | refused {e : TransformError} (hpayload : transformer.fromObject order.payload = .error e) :
      OfferEnds (.error (.payload e)) stores []
  /-- No transaction can be begun. -/
  | notBegun {payload : Option String} {e : StoreError}
      (hpayload : transformer.fromObject order.payload = .ok payload)
      (hbegin : chance.fault 0 = some e) :
      OfferEnds (.error (.store e)) stores [⟨⟨route order, .begin⟩, .error e⟩]
  /-- The row is not added: the call fails, or an extra column is not declared. -/
  | notAdded {payload : Option String} {e : StoreError}
      (hpayload : transformer.fromObject order.payload = .ok payload)
      (hbegin : chance.fault 0 = none)
      (hadd : chance.fault 1 = some e ∨ ∃ key ∈ order.extra.keys,
        columnName key ∉ (stores (route order)).schema.extra) :
      OfferEnds (.error (.store e)) stores
        [⟨⟨route order, .begin⟩, .ok ()⟩,
          ⟨⟨route order, .enqueue ⟨payload, order.delay, order.extra⟩⟩, .error e⟩,
          ⟨⟨route order, .release⟩, ()⟩]
  /-- The row is added, but its transaction cannot be committed. -/
  | notCommitted {payload : Option String} {row : Row} {after : ShardId → Store} {e : StoreError}
      (hpayload : transformer.fromObject order.payload = .ok payload)
      (hbegin : chance.fault 0 = none) (hadd : chance.fault 1 = none)
      (hdeclared : ∀ key ∈ order.extra.keys,
        columnName key ∈ (stores (route order)).schema.extra)
      (hcommit : chance.fault 2 = some e)
      (hrow : row.HoldsOrder (stores (route order)).schema (chance.time 1) l order payload)
      (hgained : Gained stores (route order) row after) :
      OfferEnds (.error (.store e)) after
        [⟨⟨route order, .begin⟩, .ok ()⟩,
          ⟨⟨route order, .enqueue ⟨payload, order.delay, order.extra⟩⟩, .ok row.id⟩,
          ⟨⟨route order, .commit⟩, .error e⟩]
  /-- The row is added. -/
  | added {payload : Option String} {row : Row} {after : ShardId → Store}
      (hpayload : transformer.fromObject order.payload = .ok payload)
      (hbegin : chance.fault 0 = none) (hadd : chance.fault 1 = none)
      (hdeclared : ∀ key ∈ order.extra.keys,
        columnName key ∈ (stores (route order)).schema.extra)
      (hcommit : chance.fault 2 = none)
      (hrow : row.HoldsOrder (stores (route order)).schema (chance.time 1) l order payload)
      (hgained : Gained stores (route order) row after) :
      OfferEnds (.ok (route order, row.id)) after
        [⟨⟨route order, .begin⟩, .ok ()⟩,
          ⟨⟨route order, .enqueue ⟨payload, order.delay, order.extra⟩⟩, .ok row.id⟩,
          ⟨⟨route order, .commit⟩, .ok ()⟩]

end

/-- A producer passes on what its shard has answered. -/
theorem Shards.offer_eq {transformer : Transformer π} {route : Route π} {order : Order π}
    {l : Location} {chance : Chance} {stores : ShardId → Store} {payload : Option String}
    (hpayload : transformer.fromObject order.payload = .ok payload) {a : Except StoreError Int}
    {x : Shards}
    (hrun : (Producer.insert (route order) ⟨payload, order.delay, order.extra⟩).run
      (answer chance l) (before stores) = (a, x)) :
    offer transformer route order l chance stores
      = ((a.mapError .store).map fun id => (route order, id), x) := by
  simp only [offer, produce, hpayload, Program.bind_eq, Program.run_bind, hrun]
  cases a <;> rfl

open Shards in
/-- Every run of a producer ends in one of these ways. -/
theorem offer_ends (transformer : Transformer π) (route : Route π) {order : Order π}
    (l : Location) (chance : Chance) (stores : ShardId → Store)
    (hdistinct : (order.extra.keys.map columnName).Nodup) :
    OfferEnds transformer route order l chance stores
      (offer transformer route order l chance stores).1
      (offer transformer route order l chance stores).2.stores
      (offer transformer route order l chance stores).2.log := by
  cases hpayload : transformer.fromObject order.payload with
  | error e =>
    have hrun : offer transformer route order l chance stores
        = (.error (.payload e), before stores) := by
      simp [offer, produce, hpayload, Program.run]
    rw [hrun]
    exact .refused hpayload
  | ok payload =>
    cases hbegin : chance.fault 0 with
    | some e =>
      rw [offer_eq hpayload (run_insert_of_notBegun hbegin)]
      exact .notBegun hpayload hbegin
    | none =>
      by_cases hrefused : ∃ e, chance.fault 1 = some e ∨ chance.fault 1 = none ∧
          (stores (route order)).schema.resolveExtra order.extra = .error e
      · obtain ⟨e, hadd⟩ := hrefused
        rw [offer_eq hpayload (run_insert_of_notAdded hbegin hadd)]
        refine .notAdded hpayload hbegin (hadd.imp_right fun h => ?_)
        obtain ⟨key, hkey, hundeclared, -⟩ := Schema.undeclared_of_resolveExtra h.2
        exact ⟨key, hkey, hundeclared⟩
      · -- the call does not fail, and all columns are declared
        push Not at hrefused
        have hadd : chance.fault 1 = none :=
          Option.eq_none_iff_forall_ne_some.2 fun e => (hrefused e).1
        obtain ⟨columns, hcolumns⟩ :
            ∃ columns, (stores (route order)).schema.resolveExtra order.extra = .ok columns := by
          cases hresolve : (stores (route order)).schema.resolveExtra order.extra with
          | error e => exact absurd hresolve ((hrefused e).2 hadd)
          | ok columns => exact ⟨columns, rfl⟩
        obtain ⟨hdeclared, -⟩ := Schema.resolveExtra_eq_ok_iff.1 hcolumns
        have hrow := holdsOrder_newRow (chance.time 1) l payload
          ((stores (route order)).lastId + 1) hdistinct hcolumns
        cases hcommit : chance.fault 2 with
        | some e =>
          rw [offer_eq hpayload (run_insert_of_notCommitted hbegin hadd hcolumns hcommit)]
          exact .notCommitted hpayload hbegin hadd hdeclared hcommit hrow (gained_insert _ _ _)
        | none =>
          rw [offer_eq hpayload (run_insert_of_committed hbegin hadd hcolumns hcommit)]
          exact .added hpayload hbegin hadd hdeclared hcommit hrow (gained_insert _ _ _)

namespace OfferEnds

variable {transformer : Transformer π} {route : Route π} {order : Order π} {l : Location}
  {chance : Chance} {stores after : ShardId → Store}
  {outcome : Except ProducerError (ShardId × Int)} {log : List (Exchange ShardCalls)}
  (h : OfferEnds transformer route order l chance stores outcome after log)

include h

theorem rejected {e : TransformError} (he : transformer.fromObject order.payload = .error e) :
    outcome = .error (.payload e) ∧ after = stores ∧ log = [] := by
  cases h with
  | refused hpayload =>
    obtain rfl := Except.error.inj (hpayload.symm.trans he)
    exact ⟨rfl, rfl, rfl⟩
  | notBegun hpayload | notAdded hpayload | notCommitted hpayload | added hpayload =>
    cases hpayload.symm.trans he

theorem failed (hcause : (∃ e, chance.fault 0 = some e) ∨ (∃ e, chance.fault 1 = some e) ∨
      (∃ key ∈ order.extra.keys, columnName key ∉ (stores (route order)).schema.extra)) :
    (∃ e, outcome = .error e) ∧ after = stores ∧
      ∀ exchange ∈ log, exchange.request.call ≠ .commit := by
  cases h with
  | refused | notBegun | notAdded => exact ⟨⟨_, rfl⟩, rfl, by simp⟩
  | notCommitted _ hbegin hadd hdeclared | added _ hbegin hadd hdeclared =>
    rcases hcause with ⟨e, he⟩ | ⟨e, he⟩ | ⟨key, hkey, hundeclared⟩
    · cases hbegin.symm.trans he
    · cases hadd.symm.trans he
    · exact absurd (hdeclared key hkey) hundeclared

theorem reported {exchange : Exchange ShardCalls} (hmem : exchange ∈ log) {e : StoreError}
    (he : exchange.request.call.error? exchange.answer = some e) :
    outcome = .error (.store e) := by
  cases h with
  | refused => cases hmem
  | notBegun =>
    obtain rfl := List.mem_singleton.1 hmem
    cases he
    rfl
  | notAdded | notCommitted | added =>
    simp only [List.mem_cons, List.not_mem_nil, or_false] at hmem
    rcases hmem with rfl | rfl | rfl <;> cases he <;> rfl

theorem accepts {payload : Option String}
    (hencoded : transformer.fromObject order.payload = .ok payload) (hbegin : chance.fault 0 = none)
    (hadd : chance.fault 1 = none) (hcommit : chance.fault 2 = none)
    (hdeclared : ∀ key ∈ order.extra.keys, columnName key ∈ (stores (route order)).schema.extra) :
    ∃ id, outcome = .ok (route order, id) := by
  cases h with
  | refused hpayload => cases hpayload.symm.trans hencoded
  | notBegun _ he => cases he.symm.trans hbegin
  | notAdded _ _ he =>
    rcases he with he | ⟨key, hkey, hundeclared⟩
    · cases he.symm.trans hadd
    · exact absurd (hdeclared key hkey) hundeclared
  | notCommitted _ _ _ _ he => cases he.symm.trans hcommit
  | added => exact ⟨_, rfl⟩

theorem accepted {shard : ShardId} {id : Int} (hok : outcome = .ok (shard, id)) :
    shard = route order ∧ ∃ payload row,
      transformer.fromObject order.payload = .ok payload ∧ row.id = id ∧
      row.HoldsOrder (stores shard).schema (chance.time 1) l order payload ∧
      Gained stores shard row after := by
  cases h with
  | added hpayload _ _ _ _ hrow hgained =>
    cases hok
    exact ⟨rfl, _, _, hpayload, rfl, hrow, hgained⟩
  | _ => cases hok

end OfferEnds

end DurableQueue
