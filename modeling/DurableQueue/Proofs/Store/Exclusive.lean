import DurableQueue.Proofs.Store.Rows
import DurableQueue.Proofs.Time.Timeline

/-!
# A claimed row is left alone

A pick hides the row that it claims for the failure delay of the attempts before. Until that time
no transaction picks the row again, whatever else is done to the store, unless the row is put
back.

* `SharedStore` is an in-memory store with the transactions of several users, `StoreAct` what they
  do, and `SharedStore.run` a sequence of acts in the order in which they take effect;
* `PutBackDuring` says that a row is put back in the course of such a sequence;
* `Hidden` is the invariant: no row with an identifier is visible before some time. A pick in
  between keeps it, since it finds the row only when it is visible and moves it on from there;
* `claimed_row_is_hidden` is the main statement.
-/

namespace DurableQueue

open Store

/-- What a user of a store does: a call in the transaction of a number, at the time that the clock
shows, a rollback, or the removal of all rows. -/
inductive StoreAct
  | call (tx : Nat) (time : Reading) (l : Location) (c : StoreCall)
  | rollback (tx : Nat)
  | clear

/-- An in-memory store and the transactions of its users, by number. A transaction that was never
begun counts as completed. -/
structure SharedStore where
  store : Store
  transactions : Nat → Transaction := fun _ => ⟨true⟩

namespace SharedStore

/-- Keep the transaction of a number. -/
def withTransaction (x : SharedStore) (tx : Nat) (t : Transaction) : SharedStore :=
  { x with transactions := fun n => if n = tx then t else x.transactions n }

/-- Make a call in the transaction of a number. -/
def call (x : SharedStore) (tx : Nat) (time : Reading) (l : Location) (c : StoreCall) :
    c.Answer × SharedStore :=
  let (answer, t, store) := c.answerIn time.time l (x.transactions tx) x.store
  (answer, { x with store }.withTransaction tx t)

/-- The store after an act. -/
def act (x : SharedStore) : StoreAct → SharedStore
  | .call tx time l c => (x.call tx time l c).2
  | .rollback tx => x.withTransaction tx (x.transactions tx).complete.2
  | .clear => { x with store := x.store.clear }

/-- The store after several acts. -/
def run (x : SharedStore) (acts : List StoreAct) : SharedStore := acts.foldl act x

/-- An act that puts the row of an identifier back. -/
def PutsBack (id : Int) (x : SharedStore) : StoreAct → Prop
  | .call tx time l (.reenqueue i delay) =>
    i = id ∧ (x.call tx time l (.reenqueue i delay)).1 = .ok true
  | _ => False

/-- The row of an identifier is put back by one of several acts. -/
def PutBackDuring (id : Int) : SharedStore → List StoreAct → Prop
  | _, [] => False
  | x, a :: as => x.PutsBack id a ∨ (x.act a).PutBackDuring id as

end SharedStore

/-- The row of an identifier has been handed out, and is not visible before some time. -/
structure Hidden (id : Int) (since : Instant) (s : Store) : Prop where
  handedOut : id ≤ s.lastId
  notBefore : ∀ q ∈ s.rows, q.id = id → since ≤ q.record.nextProcessAt

namespace Hidden

variable {id : Int} {since : Instant} {s : Store} {l : Location}

/-- A pick that finds the hidden row finds it visible, and moves it further on. -/
theorem pick (h : Hidden id since s) (time : Reading) (l : Location) (failure : FailureSettings) :
    Hidden id since (s.pick time.time l failure).2 := by
  refine ⟨?_, fun q hq hid => ?_⟩
  · rw [lastId_pick]
    exact h.handedOut
  · rcases mem_pick hq with hq | ⟨r, hr, rfl⟩
    · exact h.notBefore q hq hid
    · -- the delay counts from a time at which the row was visible
      obtain ⟨hm, -, hvisible⟩ := candidate?_mem hr
      calc since ≤ r.record.nextProcessAt := h.notBefore r hm hid
        _ ≤ time.time := hvisible
        _ ≤ _ := time.le_shift _

theorem enqueue (h : Hidden id since s) (now : Instant) (l : Location) (task : NewTask) :
    Hidden id since (s.enqueue now l task).2 := by
  refine ⟨?_, fun q hq hid => ?_⟩
  · have := s.lastId_enqueue now l task
    have := h.handedOut
    omega
  · rcases mem_enqueue hq with hq | hnew
    · exact h.notBefore q hq hid
    · -- a new row has an identifier of its own
      have := h.handedOut
      omega

theorem delete (h : Hidden id since s) (l : Location) (i : Int) :
    Hidden id since (s.delete l i).2 :=
  ⟨by rw [lastId_delete]; exact h.handedOut, fun q hq hid => h.notBefore q (mem_delete hq) hid⟩

theorem reenqueue (h : Hidden id since s) {now : Instant} {i : Int} {delay : Delay}
    (hne : ¬ (i = id ∧ (s.reenqueue now l i delay).1 = true)) :
    Hidden id since (s.reenqueue now l i delay).2 := by
  refine ⟨by rw [lastId_reenqueue]; exact h.handedOut, fun q hq hid => ?_⟩
  rcases mem_reenqueue hq with hq | ⟨r, hr, rfl⟩
  · exact h.notBefore q hq hid
  · have hri := (row?_eq_some_iff.1 hr).2.1
    exact absurd ⟨hri.symm.trans hid, by rw [reenqueue_of_some hr]⟩ hne

theorem clear (h : Hidden id since s) : Hidden id since s.clear :=
  ⟨h.handedOut, fun q hq _ => by simp [Store.clear, mem_keep] at hq⟩

/-- Every act but one that puts the row back keeps it hidden. -/
theorem act {x : SharedStore} (h : Hidden id since x.store) {a : StoreAct}
    (hne : ¬ x.PutsBack id a) : Hidden id since (x.act a).store := by
  cases a with
  | rollback tx => exact h
  | clear => exact h.clear
  | call tx time l c =>
    show Hidden id since (c.answerIn time.time l (x.transactions tx) x.store).2.2
    cases ht : (x.transactions tx).completed with
    | true => rwa [StoreCall.store_answerIn_of_completed ht]
    | false =>
      obtain ⟨hanswer, hstore⟩ := StoreCall.answerIn_of_open ht time.time l c x.store
      rw [hstore]
      cases c with
      | begin => exact h
      | pick failure => exact h.pick time l failure
      | enqueue task => exact h.enqueue time.time l task
      | delete i => exact h.delete l i
      | reenqueue i delay =>
        refine h.reenqueue fun ⟨hi, hput⟩ => hne ⟨hi, ?_⟩
        exact hanswer.trans (congrArg Except.ok hput)
      | commit => exact h
      | release => exact h

theorem run {acts : List StoreAct} {x : SharedStore} (h : Hidden id since x.store)
    (hno : ¬ x.PutBackDuring id acts) : Hidden id since (x.run acts).store := by
  induction acts generalizing x with
  | nil => exact h
  | cons a acts ih =>
    rw [SharedStore.PutBackDuring, not_or] at hno
    exact ih (h.act hno.1) hno.2

end Hidden

/-- A pick that returns a record has claimed the row that was to be picked. -/
theorem StoreCall.candidate?_of_pick {now : Instant} {l : Location} {t : Transaction} {s : Store}
    {failure : FailureSettings} {record : TaskRecord}
    (h : ((StoreCall.pick failure).answerIn now l t s).1 = .ok (some record)) :
    ∃ r, s.candidate? now l = some r ∧ record = claim now failure r.record ∧
      ((StoreCall.pick failure).answerIn now l t s).2.2 = s.update r.id (claim now failure) := by
  have hcall : (t.pick now l failure s).1 = .ok (some record) := h
  have hopen := Transaction.open_of_whenOpen hcall
  obtain ⟨hanswer, hstore⟩ := answerIn_of_open hopen now l (.pick failure) s
  have hpick : (s.pick now l failure).1 = some record := Except.ok.inj (hanswer.symm.trans h)
  cases hc : s.candidate? now l with
  | none =>
    rw [pick_of_none hc] at hpick
    cases hpick
  | some r =>
    rw [pick_of_some hc] at hpick
    refine ⟨r, rfl, (Option.some.inj hpick).symm, hstore.trans ?_⟩
    exact congrArg Prod.snd (pick_of_some hc failure)

/-- A call that answers that it has put a row back has done so. -/
theorem StoreCall.row_of_reenqueue {now : Instant} {l : Location} {t : Transaction} {s : Store}
    {id : Int} {delay : Delay}
    (h : ((StoreCall.reenqueue id delay).answerIn now l t s).1 = .ok true) :
    ∃ r ∈ s.rows, r.id = id ∧ ((StoreCall.reenqueue id delay).answerIn now l t s).2.2
      = s.update r.id (putBack now delay) := by
  have hcall : (t.reenqueue now l id delay s).1 = .ok true := h
  have hopen := Transaction.open_of_whenOpen hcall
  obtain ⟨hanswer, hstore⟩ := answerIn_of_open hopen now l (.reenqueue id delay) s
  have hput : (s.reenqueue now l id delay).1 = true := Except.ok.inj (hanswer.symm.trans h)
  cases hr : s.row? l id with
  | none =>
    rw [reenqueue_of_none hr] at hput
    cases hput
  | some r =>
    obtain ⟨hmem, rfl, -⟩ := row?_eq_some_iff.1 hr
    exact ⟨r, hmem, rfl, hstore.trans (congrArg Prod.snd (reenqueue_of_some hr delay))⟩

namespace SharedStore

variable {x : SharedStore} {tx : Nat} {t : Reading} {l : Location} {failure : FailureSettings}
  {record : TaskRecord}

/-- A pick that returns a record has claimed the row that was to be picked. -/
theorem candidate?_of_pick (h : (x.call tx t l (.pick failure)).1 = .ok (some record)) :
    ∃ r, x.store.candidate? t.time l = some r ∧ record = claim t.time failure r.record ∧
      (x.call tx t l (.pick failure)).2.store = x.store.update r.id (claim t.time failure) :=
  StoreCall.candidate?_of_pick h

/-- A pick that returns a record hides its row for the failure delay of the attempts before. -/
theorem hidden_of_pick (h : (x.call tx t l (.pick failure)).1 = .ok (some record)) :
    ∃ before, x.store.get? l record.id = some before ∧ record.attempts = before.attempts.next ∧
      Hidden record.id (t.time.shift (failure.delayForAttempt before.attempts))
        (x.call tx t l (.pick failure)).2.store := by
  obtain ⟨r, hr, rfl, hstore⟩ := candidate?_of_pick h
  obtain ⟨hm, -⟩ := candidate?_mem hr
  refine ⟨r.record, get?_of_candidate? hr, rfl, ?_⟩
  rw [hstore]
  refine ⟨(x.store.bounded r hm).2, fun q hq hid => ?_⟩
  rw [eq_changed_of_mem_update hm hq hid]
  exact le_rfl

/-- **A claimed row is exclusive for its failure delay.** A pick that reads the time `t` and
returns a record finds the row after `before.attempts` attempts. Whatever is done to the store by
any transactions afterwards, with any failure settings: a later pick that returns the row again
reads a time no earlier than `t` shifted by the failure delay of those attempts, unless the row
was put back in between. -/
theorem claimed_row_is_hidden
    (hpick : (x.call tx t l (.pick failure)).1 = .ok (some record)) {acts : List StoreAct}
    (hno : ¬ (x.call tx t l (.pick failure)).2.PutBackDuring record.id acts)
    {tx' : Nat} {t' : Reading} {l' : Location} {failure' : FailureSettings} {again : TaskRecord}
    (hagain : (((x.call tx t l (.pick failure)).2.run acts).call tx' t' l' (.pick failure')).1
      = .ok (some again))
    (hid : again.id = record.id) :
    ∃ before, x.store.get? l record.id = some before ∧
      record.attempts = before.attempts.next ∧
      t.time.shift (failure.delayForAttempt before.attempts) ≤ t'.time := by
  obtain ⟨before, hbefore, hattempts, hhidden⟩ := hidden_of_pick hpick
  obtain ⟨r, hr, rfl, -⟩ := candidate?_of_pick hagain
  obtain ⟨hm, -, hvisible⟩ := candidate?_mem hr
  have hlater := (hhidden.run hno).notBefore r hm hid
  exact ⟨before, hbefore, hattempts, le_trans hlater hvisible⟩

/-- A place for orders. -/
def orders : Location := ⟨"orders", "tasks", none⟩

/-- A store with one order and open transactions. -/
def oneOrder : SharedStore where
  store := ((Store.empty {}).insert .epoch orders {} []).2
  transactions := fun _ => .opened

/-- The order is picked, in vain looked for half a minute later under other settings, and picked
again after a minute. -/
theorem order_is_hidden_for_a_minute :
    ∃ before, oneOrder.store.get? orders 1 = some before ∧ Count.one = before.attempts.next ∧
      Instant.epoch.shift (FailureSettings.delayForAttempt ⟨.linear, .ofSeconds 60⟩ before.attempts)
        ≤ ⟨60, 0, by decide⟩ := by
  have hpick : (oneOrder.call 0 ⟨.epoch, rfl⟩ orders (.pick ⟨.linear, .ofSeconds 60⟩)).1
      = .ok (some _) := rfl
  have hagain : (((oneOrder.call 0 ⟨.epoch, rfl⟩ orders (.pick ⟨.linear, .ofSeconds 60⟩)).2.run
      [.call 1 ⟨⟨30, 0, by decide⟩, rfl⟩ orders (.pick ⟨.linear, .zero⟩), .rollback 1]).call
      2 ⟨⟨60, 0, by decide⟩, rfl⟩ orders (.pick ⟨.linear, .zero⟩)).1 = .ok (some _) := rfl
  exact claimed_row_is_hidden hpick (by simp [PutBackDuring, PutsBack]) hagain rfl

end SharedStore

end DurableQueue
