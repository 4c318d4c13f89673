import DurableQueue.Proofs.Json.Codecs
import DurableQueue.Proofs.Producer.Offering
import DurableQueue.Proofs.Worker.Discipline

/-!
# From a producer to a consumer

An order that a producer has accepted waits in the store of a shard until an iteration picks it.

* `Store.Becomes` relates a store to what it may become by calls of any users: no identifier is
  handed out again, and rows that are still there are of the same tasks (`SharedStore.becomes_run`);
* `IsCourse.task_eq`: the consumer of an iteration is given the task of the row that was picked;
* `Transformer.Restores` says that payloads are read back;
* `orders_arrive_unchanged` is the main statement.
-/

namespace DurableQueue

open Identifier Store Iteration

variable {π : Type}

/-! ### Rows that wait -/

/-- What a store may become: no identifier is handed out again, and rows with old identifiers are
of the same tasks. -/
structure Store.Becomes (s later : Store) : Prop where
  lastId : s.lastId ≤ later.lastId
  rows : ∀ q ∈ later.rows, q.id ≤ s.lastId → ∃ r ∈ s.rows, r.SameTask q

namespace Store.Becomes

variable {s mid later : Store}

theorem refl (s : Store) : Becomes s s where
  lastId := Nat.le_refl _
  rows q hq _ := ⟨q, hq, .refl q⟩

theorem trans (h : Becomes s mid) (h' : Becomes mid later) : Becomes s later where
  lastId := Nat.le_trans h.lastId h'.lastId
  rows q hq hid := by
    obtain ⟨p, hp, hsame⟩ := h'.rows q hq (hid.trans (Int.ofNat_le.2 h.lastId))
    obtain ⟨r, hr, hsame'⟩ := h.rows p hp (hsame.id ▸ hid)
    exact ⟨r, hr, hsame'.trans hsame⟩

theorem pick (s : Store) (now : Instant) (l : Location) (failure : FailureSettings) :
    Becomes s (s.pick now l failure).2 where
  lastId := Nat.le_of_eq (lastId_pick s now l failure).symm
  rows q hq _ := by
    rcases mem_pick hq with hq | ⟨r, hr, rfl⟩
    · exact ⟨q, hq, .refl q⟩
    · exact ⟨r, (candidate?_mem hr).1, sameTask_claim now failure r⟩

theorem enqueue (s : Store) (now : Instant) (l : Location) (task : NewTask) :
    Becomes s (s.enqueue now l task).2 where
  lastId := s.lastId_enqueue now l task
  rows q hq hid := by
    rcases mem_enqueue hq with hq | hnew
    · exact ⟨q, hq, .refl q⟩
    · omega

theorem delete (s : Store) (l : Location) (id : Int) : Becomes s (s.delete l id).2 where
  lastId := Nat.le_of_eq (lastId_delete s l id).symm
  rows q hq _ := ⟨q, mem_delete hq, .refl q⟩

theorem reenqueue (s : Store) (now : Instant) (l : Location) (id : Int) (delay : Delay) :
    Becomes s (s.reenqueue now l id delay).2 where
  lastId := Nat.le_of_eq (lastId_reenqueue s now l id delay).symm
  rows q hq _ := by
    rcases mem_reenqueue hq with hq | ⟨r, hr, rfl⟩
    · exact ⟨q, hq, .refl q⟩
    · exact ⟨r, (row?_eq_some_iff.1 hr).1, sameTask_putBack now delay r⟩

theorem clear (s : Store) : Becomes s s.clear where
  lastId := Nat.le_refl _
  rows q hq _ := ⟨q, (mem_keep.1 hq).1, .refl q⟩

theorem answerIn (now : Instant) (l : Location) (c : StoreCall) (t : Transaction) (s : Store) :
    Becomes s (c.answerIn now l t s).2.2 := by
  cases ht : t.completed with
  | true =>
    rw [StoreCall.store_answerIn_of_completed ht]
    exact .refl s
  | false =>
    rw [(StoreCall.answerIn_of_open ht now l c s).2]
    cases c with
    | pick failure => exact .pick s now l failure
    | enqueue task => exact .enqueue s now l task
    | delete id => exact .delete s l id
    | reenqueue id delay => exact .reenqueue s now l id delay
    | begin | commit | release => exact .refl s

end Store.Becomes

namespace SharedStore

variable {tx : Nat} {t : Reading} {l : Location} {failure : FailureSettings} {record : TaskRecord}

theorem becomes_act (x : SharedStore) (a : StoreAct) : x.store.Becomes (x.act a).store := by
  cases a with
  | call tx t l c => exact .answerIn t.time l c (x.transactions tx) x.store
  | rollback tx => exact .refl x.store
  | clear => exact .clear x.store

theorem becomes_run (x : SharedStore) (acts : List StoreAct) :
    x.store.Becomes (x.run acts).store := by
  induction acts generalizing x with
  | nil => exact .refl x.store
  | cons a acts ih => exact (x.becomes_act a).trans (ih (x.act a))

/-- A later pick that returns a row of the store returns its task. -/
theorem payload_of_pick {x : SharedStore} {r : Row} (hr : r ∈ x.store.rows) {acts : List StoreAct}
    (hpick : ((x.run acts).call tx t l (.pick failure)).1 = .ok (some record))
    (hid : record.id = r.id) : record.payload = r.record.payload := by
  obtain ⟨q, hq, rfl, -⟩ := candidate?_of_pick hpick
  have hold : q.id ≤ x.store.lastId := by
    rw [show q.id = r.id from hid]
    exact (x.store.bounded r hr).2
  obtain ⟨p, hp, hsame⟩ := (x.becomes_run acts).rows q (candidate?_mem hq).1 hold
  rw [← eq_of_id_eq hp hr (hsame.id.symm.trans hid)]
  exact hsame.payload

end SharedStore

/-! ### The task of a consumer -/

section

variable {transformer : Transformer π} {shard : ShardId} {mode : ProcessingMode}
  {es : List (Exchange (TaskCalls π))} {failure : FailureSettings} {record : TaskRecord}

/-- No row is picked after another one. -/
theorem Ledger.picked_note {l : Ledger} {r : TaskCall π} (a : r.Answer)
    (h : l.Permits transformer shard mode r) (hpicked : l.picked = some record) :
    (l.note r a).picked = some record := by
  cases r with
  | store c =>
    show (l.noteStore c a).picked = some record
    cases c with
    | pick failure =>
      rw [h.2.1] at hpicked
      cases hpicked
    | enqueue task => exact hpicked
    | release => exact hpicked
    | _ => cases a <;> exact hpicked
  | reenqueueSettings => exact (picked_notePlan a).trans hpicked
  | _ => exact hpicked

/-- The consumer of an iteration is given the task of the row that the iteration has picked. -/
theorem IsCourse.task_eq (h : IsCourse transformer shard mode es)
    (hpick : ⟨.store (.pick failure), .ok (some record)⟩ ∈ es) {task : Task π}
    {outcome : ConsumerOutcome} (hconsume : ⟨.consume task, outcome⟩ ∈ es) :
    ∃ payload, transformer.toObject record.payload = .ok payload ∧
      task = .ofRecord shard record payload := by
  obtain ⟨before, later, rfl⟩ := List.append_of_mem hpick
  obtain ⟨hbefore, hrest⟩ := Monitor.keeps_append.1 h.keeps.1
  obtain ⟨⟨-, -, hnone⟩, hlater⟩ := Monitor.keeps_cons.1 hrest
  rcases List.mem_append.1 hconsume with hmem | hmem
  · -- a consumer that has run before would still be noted at the pick
    obtain ⟨first, between, rfl⟩ := List.append_of_mem hmem
    obtain ⟨-, hfirst⟩ := Monitor.keeps_append.1 hbefore
    obtain ⟨-, hbetween⟩ := Monitor.keeps_cons.1 hfirst
    have hran := hbetween.stays (fun l => l.outcome.isSome = true)
      (fun l r a _ hran => Ledger.outcome_note r a (.inl hran)) rfl
    rw [← Monitor.afterAll_cons, ← Monitor.afterAll_append, hnone] at hran
    cases hran
  · rcases List.mem_cons.1 hmem with heq | hmem
    · cases heq
    · obtain ⟨between, last, rfl⟩ := List.append_of_mem hmem
      obtain ⟨hbetween, hlast⟩ := Monitor.keeps_append.1 hlater
      obtain ⟨⟨-, ⟨record', payload, hpicked', hpayload, htask⟩, -⟩, -⟩ :=
        Monitor.keeps_cons.1 hlast
      have hpicked := hbetween.stays (fun l => l.picked = some record)
        (fun l r a hr hpicked => Ledger.picked_note a hr hpicked) rfl
      rw [hpicked] at hpicked'
      cases hpicked'
      exact ⟨payload, hpayload, htask⟩

/-- Processing a record whose payload can be read runs the consumer on its task. -/
theorem Iteration.consume_mem_of_processWith {payload : Option π}
    (hpayload : transformer.toObject record.payload = .ok payload)
    {apply : TaskResult → TaskProgram π (Except ProcessingError Unit)}
    (h : (processWith transformer shard record apply).Leads es (.done ())) :
    ∃ outcome, ⟨.consume (.ofRecord shard record payload), outcome⟩ ∈ es := by
  obtain ⟨next, hnext⟩ : ∃ next : Nat → ConsumerOutcome → TaskProgram π Unit,
      processWith transformer shard record apply
        = .ask (.notify record .started) fun _ => .ask .clock fun started =>
            .ask (.consume (.ofRecord shard record payload)) (next started) := by
    unfold processWith execute
    rw [hpayload]
    exact ⟨_, rfl⟩
  rw [hnext] at h
  cases h with | ask _ h =>
  cases h with | ask started h =>
  cases h with | ask outcome h =>
  exact ⟨outcome, by simp⟩

end

/-! ### Payloads that are read back -/

namespace Transformer

/-- Every payload is encoded, and the same payload is read back. -/
def Restores (transformer : Transformer π) : Prop :=
  ∀ payload, ∃ text, transformer.fromObject payload = .ok text ∧
    transformer.toObject text = .ok payload

theorem text_restores : text.Restores := fun payload => ⟨payload, rfl, rfl⟩

/-- JSON documents are read back when each single payload survives JSON. -/
theorem json_restores [JsonCodec π] (h : ∀ a : π, SurvivesJson a) : (json π).Restores := by
  intro payload
  cases payload with
  | none => exact ⟨none, rfl, rfl⟩
  | some a =>
    have ha : JsonCodec.decodeText? (JsonCodec.encodeText a) = some a := h a
    exact ⟨some (JsonCodec.encodeText a), rfl, by simp only [json, ha]⟩

theorem json_text_restores : (json String).Restores :=
  json_restores fun s => (Json.undoes_text s).survivesJson

end Transformer

/-! ### Orders -/

/-- A picked record arrives at its consumer with a payload. -/
structure Arrives (transformer : Transformer π) (shard : ShardId) (record : TaskRecord)
    (payload : Option π) : Prop where
  read : transformer.toObject record.payload = .ok payload
  /-- Processing the record runs the consumer on its task. -/
  consumed : ∀ apply es, (processWith transformer shard record apply).Leads es (.done ()) →
    ∃ outcome, ⟨.consume (.ofRecord shard record payload), outcome⟩ ∈ es
  /-- The consumer of an iteration that has picked the record is given no other task. -/
  unchanged : ∀ mode es failure task outcome, IsCourse transformer shard mode es →
    ⟨.store (.pick failure), .ok (some record)⟩ ∈ es → ⟨.consume task, outcome⟩ ∈ es →
    task = .ofRecord shard record payload

theorem Arrives.of_read {transformer : Transformer π} {shard : ShardId} {record : TaskRecord}
    {payload : Option π} (h : transformer.toObject record.payload = .ok payload) :
    Arrives transformer shard record payload where
  read := h
  consumed apply es hes := consume_mem_of_processWith h hes
  unchanged mode es failure task outcome hcourse hpick hconsume := by
    obtain ⟨payload', hpayload, rfl⟩ := hcourse.task_eq hpick hconsume
    obtain rfl := Except.ok.inj (h.symm.trans hpayload)
    rfl

/-- No shard was changed, and no commit was asked for. -/
structure Untouched (stores : ShardId → Store) (after : Shards) : Prop where
  stores : after.stores = stores
  noCommit : ∀ exchange ∈ after.log, exchange.request.call ≠ .commit

/-- What becomes of an order. -/
structure Fulfilled (transformer : Transformer π) (route : Route π) (order : Order π) (l : Location)
    (chance : Chance) (stores : ShardId → Store)
    (outcome : Except ProducerError (ShardId × Int)) (after : Shards) : Prop where
  /-- For a payload that cannot be encoded no call is made. -/
  rejected : ∀ e, transformer.fromObject order.payload = .error e →
    outcome = .error (.payload e) ∧ after.stores = stores ∧ after.log = []
  /-- No shard changes when the transaction cannot be begun or the row cannot be added. -/
  failed : (∃ e, chance.fault 0 = some e) ∨ (∃ e, chance.fault 1 = some e) ∨
      (∃ key ∈ order.extra.keys, columnName key ∉ (stores (route order)).schema.extra) →
    (∃ e, outcome = .error e) ∧ Untouched stores after
  /-- The error of a call is the error of the producer. -/
  reported : ∀ exchange ∈ after.log, ∀ e, exchange.request.call.error? exchange.answer = some e →
    outcome = .error (.store e)
  /-- Nothing else is in the way of an order. -/
  accepts : (∃ payload, transformer.fromObject order.payload = .ok payload) →
    chance.fault 0 = none → chance.fault 1 = none → chance.fault 2 = none →
    (∀ key ∈ order.extra.keys, columnName key ∈ (stores (route order)).schema.extra) →
    ∃ id, outcome = .ok (route order, id)
  /-- An accepted order is one more row, on the shard that the route has chosen. -/
  accepted : ∀ shard id, outcome = .ok (shard, id) → shard = route order ∧
    ∃ payload row, transformer.fromObject order.payload = .ok payload ∧ row.id = id ∧
      row.HoldsOrder (stores shard).schema (chance.time 1) l order payload ∧
      Gained stores shard row after.stores
  /-- Whatever is done to the shard by any users, a pick that returns the row arrives at its
  consumer with the payload of the order. -/
  delivered : transformer.Restores → ∀ shard id, outcome = .ok (shard, id) →
    ∀ (x : SharedStore) (acts : List StoreAct) tx t l' failure record,
      x.store = after.stores shard →
      ((x.run acts).call tx t l' (.pick failure)).1 = .ok (some record) → record.id = id →
      Arrives transformer shard record order.payload

/-- **Orders are added exactly and arrive unchanged.** Take any transformer, route, order whose keys
are cleaned to different columns, shards with any stores and any calls that fail. What becomes of
the order is `Fulfilled`: a payload that cannot be encoded is rejected before any call, a failure to
begin a transaction or to add the row leaves all shards as they were, and a success adds one row on
one shard. With a transformer that restores payloads, as the two for texts and for JSON texts do,
the row brings the payload of the order to its consumer. -/
theorem orders_arrive_unchanged (transformer : Transformer π) (route : Route π) (order : Order π)
    (l : Location) (chance : Chance) (stores : ShardId → Store)
    (hdistinct : (order.extra.keys.map columnName).Nodup) :
    Fulfilled transformer route order l chance stores
      (Shards.offer transformer route order l chance stores).1
      (Shards.offer transformer route order l chance stores).2 ∧
    Transformer.text.Restores ∧ (Transformer.json String).Restores := by
  have hends := offer_ends transformer route l chance stores hdistinct
  refine ⟨⟨fun e => hends.rejected, fun hcause => ?_, fun _ hmem _ => hends.reported hmem,
    fun ⟨_, hencoded⟩ => hends.accepts hencoded, fun shard id => hends.accepted, ?_⟩,
    Transformer.text_restores, Transformer.json_text_restores⟩
  · obtain ⟨herror, hstores, hcommit⟩ := hends.failed hcause
    exact ⟨herror, hstores, hcommit⟩
  · intro hrestores shard id hok x acts tx t l' failure record hx hpick hid
    obtain ⟨-, payload, row, hencoded, rfl, hrow, hgained⟩ := hends.accepted hok
    have hmem : row ∈ x.store.rows := by
      rw [hx, hgained.rows]
      exact List.mem_append_right _ (List.mem_singleton_self row)
    obtain ⟨text, hencoded', hdecoded⟩ := hrestores order.payload
    obtain rfl := Except.ok.inj (hencoded.symm.trans hencoded')
    refine .of_read ?_
    rw [SharedStore.payload_of_pick hmem hpick hid, hrow.payload]
    exact hdecoded

/-- A greeting that is to be sent in half a minute, for a tenant. -/
def greeting : Order String where
  payload := some "say \"hi\""
  delay := .ofSeconds 30
  extra := .ofList [("tenant!", "7")]

/-- Shards with a column for the tenant, where one order waits already on the first. -/
def tenantShards (shard : ShardId) : Store :=
  let s := Store.empty SharedStore.tenantColumns
  if shard = "main" then (s.insert .epoch SharedStore.orders {} []).2 else s

/-- The run of a producer that is given the greeting. -/
def greetingOffer : Except ProducerError (ShardId × Int) × Shards :=
  Shards.offer (.json String) (.byWeight String.length ["main", "spare"]) greeting
    SharedStore.orders ⟨fun _ => .epoch, fun _ => none⟩ tenantShards

/-- The first shard when the order that was waiting there has been picked. -/
def afterWaiting (t : Reading) : SharedStore :=
  SharedStore.run { store := greetingOffer.2.stores "main" }
    [.call 0 t SharedStore.orders .begin, .call 0 t SharedStore.orders (.pick {})]

/-- The greeting is added under the next identifier of the first shard. Half a minute later it is
picked there, and arrives as it was. -/
theorem greeting_arrives :
    (greeting.extra.keys.map columnName).Nodup ∧ greetingOffer.1 = .ok ("main", 2) ∧
    ∃ record, ((afterWaiting ⟨.epoch, rfl⟩).call 0 ⟨⟨30, 0, by decide⟩, rfl⟩ SharedStore.orders
        (.pick {})).1 = .ok (some record) ∧ record.id = 2 ∧
      Arrives (.json String) "main" record (some "say \"hi\"") := by
  have hdistinct : (greeting.extra.keys.map columnName).Nodup := by decide +kernel
  obtain ⟨hfulfilled, -, hjson⟩ := orders_arrive_unchanged (.json String)
    (.byWeight String.length ["main", "spare"]) greeting SharedStore.orders
    ⟨fun _ => .epoch, fun _ => none⟩ tenantShards hdistinct
  have hadded : greetingOffer.1 = .ok ("main", 2) := rfl
  obtain ⟨record, hpick, hid⟩ : ∃ record,
      ((afterWaiting ⟨.epoch, rfl⟩).call 0 ⟨⟨30, 0, by decide⟩, rfl⟩ SharedStore.orders
        (.pick {})).1 = .ok (some record) ∧ record.id = 2 := ⟨_, rfl, rfl⟩
  exact ⟨hdistinct, hadded, record, hpick, hid,
    hfulfilled.delivered hjson "main" 2 hadded _ _ 0 _ _ _ record rfl hpick hid⟩

end DurableQueue
