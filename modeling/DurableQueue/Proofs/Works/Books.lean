import DurableQueue.Proofs.Store.Rows
import DurableQueue.Proofs.Works.System

/-!
# The books of the works

What the history says about rows, and what keeps it right.

* `Accounted` says that a row is still there or how it may have gone, by what has happened since,
  and `State.NoTaskLost` says this of every row that was ever added;
* `Books` is the invariant: who holds a task has picked it, identifiers are handed out once, and
  no task is lost;
* `Books.grow` is the step lemma behind all changes of a store. `Books.call` is the case of a
  call, with a fault or without, and `Books.serve` that of a request which custody permits;
* `exists_enqueued_of_reach`: every task that a store accepts is on record.
-/

namespace DurableQueue.Works

open Store

variable {π ω υ : Type} {plan : Plan π ω υ} {w w' : State π ω υ}

/-! ### Statements about the history -/

/-- A row of the same identifier in the same place. -/
structure SameSpot (a b : Row) : Prop where
  id : b.id = a.id
  table : b.table = a.table
  queue : b.queue = a.queue

/-- A row is still in its store, or the consumer has finished a task that was picked from it, or
it was removed from outside. -/
def Accounted (s : Store) (n : Nat) (row : Row) (later : List Event) : Prop :=
  (∃ q ∈ s.rows, row.SameTask q) ∨
  (∃ q, SameSpot row q ∧ [.finished n q, .picked n q].Sublist later) ∨
  .deleted n row.table row.queue row.id ∈ later ∨
  .cleared n ∈ later

/-- Every row that was added is accounted for. -/
def State.NoTaskLost (w : State π ω υ) : Prop :=
  ∀ later n row before, w.history = later ++ .enqueued n row :: before →
    Accounted (w.stores n) n row later

/-- A row that is added has an identifier that is greater than those of all rows picked before. -/
def Fresh (newer older : Event) : Prop :=
  ∀ n row q, newer = .enqueued n row → older = .picked n q → q.id < row.id

/-- What the history says about a custody: the held task was picked, and finished after that if
the custody says so. -/
structure Backed (plan : Plan π ω υ) (history : List Event) (c : Custody) : Prop where
  picked : ∀ place record, c.held = some (place, record) →
    .picked (plan.store place.shard) (place.row record) ∈ history
  finished : ∀ place record, c.held = some (place, record) → c.finished = true →
    [.finished (plan.store place.shard) (place.row record),
      .picked (plan.store place.shard) (place.row record)].Sublist history

/-- The books of the works are right. -/
structure Books (plan : Plan π ω υ) (w : State π ω υ) : Prop where
  backed : ∀ actor, Backed plan w.history (w.custody actor)
  jobs : ∀ place record, (place, record) ∈ w.jobs →
    .picked (plan.store place.shard) (place.row record) ∈ w.history
  handedOut : ∀ n row, .picked n row ∈ w.history → row.id ≤ ((w.stores n).lastId : Int)
  fresh : w.history.Pairwise Fresh
  kept : w.NoTaskLost

theorem Backed.append {history : List Event} {c : Custody} (h : Backed plan history c)
    (es : List Event) : Backed plan (es ++ history) c where
  picked place record hheld := List.mem_append_right es (h.picked place record hheld)
  finished place record hheld hfinished :=
    (h.finished place record hheld hfinished).trans (List.sublist_append_right es history)

/-- Two events in a row, the earlier one of which is not in the last part of the history, come
before that part. -/
theorem sublist_left_of_not_mem {e f : Event} {later before : List Event}
    (h : [e, f].Sublist (later ++ before)) (hf : f ∉ before) : [e, f].Sublist later := by
  obtain ⟨xs, ys, heq, hxs, hys⟩ := List.sublist_append_iff.1 h
  cases ys with
  | nil =>
    rw [List.append_nil] at heq
    rwa [heq]
  | cons y ys =>
    have hlast : f ∈ y :: ys := by
      have hf : [e, f].getLast? = (xs ++ y :: ys).getLast? := congrArg List.getLast? heq
      rw [List.getLast?_append_of_ne_nil _ (List.cons_ne_nil y ys)] at hf
      exact List.mem_of_getLast? hf.symm
    exact absurd (hys.subset hlast) hf

/-- An event in the middle of a history that has grown is new, or it was there before. -/
theorem split_of_append_eq {es history later before : List Event} {e : Event}
    (h : es ++ history = later ++ e :: before) :
    (∃ older, es = later ++ e :: older) ∨
      ∃ since, later = es ++ since ∧ history = since ++ e :: before := by
  rcases List.append_eq_append_iff.1 h with ⟨since, hlater, hhistory⟩ | ⟨older, hes, hrest⟩
  · exact .inr ⟨since, hlater, hhistory⟩
  · cases older with
    | nil =>
      refine .inr ⟨[], ?_, hrest.symm⟩
      rw [List.append_nil] at hes ⊢
      exact hes.symm
    | cons o older =>
      obtain ⟨rfl, -⟩ := List.cons.inj hrest
      exact .inl ⟨older, hes⟩

/-! ### Steps of the books -/

/-- What was accounted for stays so, if its row does. -/
theorem Accounted.append {s s' : Store} {n : Nat} {row : Row} {later : List Event}
    (h : Accounted s n row later) (es : List Event)
    (hstays : ∀ q ∈ s.rows, row.SameTask q → Accounted s' n row (es ++ later)) :
    Accounted s' n row (es ++ later) := by
  rcases h with ⟨q, hq, hsame⟩ | ⟨q, hspot, hsub⟩ | hdeleted | hcleared
  · exact hstays q hq hsame
  · exact .inr (.inl ⟨q, hspot, hsub.trans (List.sublist_append_right es later)⟩)
  · exact .inr (.inr (.inl (List.mem_append_right es hdeleted)))
  · exact .inr (.inr (.inr (List.mem_append_right es hcleared)))

/-- A finished task that was picked from a row was so after the row was added. -/
theorem Books.sublist_later (h : Books plan w) {later before : List Event} {n : Nat} {row q : Row}
    (hhistory : w.history = later ++ .enqueued n row :: before) (hspot : SameSpot row q)
    (hsub : [.finished n q, .picked n q].Sublist w.history) :
    [.finished n q, .picked n q].Sublist later := by
  rw [hhistory] at hsub
  refine sublist_left_of_not_mem hsub fun hmem => ?_
  rcases List.mem_cons.1 hmem with heq | hmem
  · cases heq
  · -- rows that were picked before have smaller identifiers
    have hfresh := h.fresh
    rw [hhistory, List.pairwise_append, List.pairwise_cons] at hfresh
    have hlt := hfresh.2.1.1 _ hmem n row q rfl rfl
    rw [hspot.id] at hlt
    exact absurd hlt (Int.lt_irrefl _)

/-- A change of stores keeps the books right: a new row has a new identifier and is there, and a
row that goes does so for a reason. -/
theorem Books.grow (h : Books plan w) (es : List Event) (hhistory : w'.history = es ++ w.history)
    (hcustody : w'.custody = w.custody) (hjobs : w'.jobs = w.jobs)
    (hlast : ∀ n, (w.stores n).lastId ≤ (w'.stores n).lastId)
    (hpicked : ∀ n row, .picked n row ∉ es)
    (hnew : ∀ n row, .enqueued n row ∈ es →
      ((w.stores n).lastId : Int) < row.id ∧ row ∈ (w'.stores n).rows)
    (hstays : ∀ n, ∀ row ∈ (w.stores n).rows, (∃ q ∈ (w'.stores n).rows, row.SameTask q) ∨
      (∃ q, SameSpot row q ∧ [.finished n q, .picked n q].Sublist w.history) ∨
      .deleted n row.table row.queue row.id ∈ es ∨ .cleared n ∈ es) : Books plan w' where
  backed actor := by
    rw [hhistory, hcustody]
    exact (h.backed actor).append es
  jobs place record hmem := by
    rw [hhistory]
    exact List.mem_append_right es (h.jobs place record (hjobs ▸ hmem))
  handedOut n row hmem := by
    rw [hhistory] at hmem
    rcases List.mem_append.1 hmem with hmem | hmem
    · exact absurd hmem (hpicked n row)
    · have := h.handedOut n row hmem
      have := hlast n
      omega
  fresh := by
    rw [hhistory]
    refine List.pairwise_append.2 ⟨?_, h.fresh, ?_⟩
    · refine List.pairwise_of_forall_mem_list fun newer _ older holder n row q _ heq => ?_
      exact absurd (heq ▸ holder) (hpicked n q)
    · rintro newer hnewer older holder n row q rfl rfl
      have := (hnew n row hnewer).1
      have := h.handedOut n q holder
      omega
  kept := by
    intro later n row before heq
    rw [hhistory] at heq
    -- either the row is new, or it was accounted for before
    rcases split_of_append_eq heq with ⟨older, hes⟩ | ⟨since, rfl, hsince⟩
    · refine .inl ⟨row, (hnew n row ?_).2, .refl row⟩
      rw [hes]
      exact List.mem_append_right later List.mem_cons_self
    · refine (h.kept since n row before hsince).append es fun r hr hsame => ?_
      rcases hstays n r hr with ⟨q, hq, hsame'⟩ | ⟨q, hspot, hsub⟩ | hdeleted | hcleared
      · exact .inl ⟨q, hq, hsame.trans hsame'⟩
      · have hspot' : SameSpot row q := ⟨hspot.id.trans hsame.id, hspot.table.trans hsame.table,
          hspot.queue.trans hsame.queue⟩
        have hsub' := h.sublist_later hsince hspot' hsub
        exact .inr (.inl ⟨q, hspot', hsub'.trans (List.sublist_append_right es since)⟩)
      · rw [hsame.id, hsame.table, hsame.queue] at hdeleted
        exact .inr (.inr (.inl (List.mem_append_left since hdeleted)))
      · exact .inr (.inr (.inr (List.mem_append_left since hcleared)))

/-- What else changes does not matter to the books. -/
theorem Books.congr (h : Books plan w) (hhistory : w'.history = w.history)
    (hcustody : w'.custody = w.custody) (hjobs : w'.jobs = w.jobs)
    (hstores : w'.stores = w.stores) : Books plan w' := by
  refine h.grow [] hhistory hcustody hjobs (fun n => ?_) (fun _ _ => List.not_mem_nil)
    (fun _ _ hmem => absurd hmem List.not_mem_nil) fun n row hrow => ?_
  · exact Nat.le_of_eq (by rw [hstores])
  · rw [hstores]
    exact .inl ⟨row, hrow, .refl row⟩

/-- The event of a call that has taken effect is about a row that it has added. -/
theorem enqueued_of_mem_effects {place : Place} {c : StoreCall} {time : Instant} {t : Transaction}
    {s : Store} {e : Event}
    (he : e ∈ plan.effects place c (c.answerIn time place.location t s).1
      (c.answerIn time place.location t s).2.2) :
    ∃ row, e = .enqueued (plan.store place.shard) row ∧ (s.lastId : Int) < row.id ∧
      row ∈ (c.answerIn time place.location t s).2.2.rows := by
  cases c with
  | enqueue task =>
    cases ha : (StoreCall.answerIn time place.location (.enqueue task) t s).1 with
    | error e =>
      rw [ha] at he
      cases he
    | ok id =>
      rw [ha] at he
      obtain ⟨row, hrow, rfl⟩ := Option.map_eq_some_iff.1 (Option.mem_toList.1 he)
      obtain ⟨hmem, hid, -⟩ := row?_eq_some_iff.1 hrow
      have := StoreCall.id_eq_of_enqueue ha
      exact ⟨row, rfl, by omega, hmem⟩
  | _ => cases he

/-- An accepted task is on record with its row. -/
theorem exists_enqueued_of_reach {actor : Actor} {time : Instant} {place : Place} {task : NewTask}
    {id : Int} (h : (w.reach plan actor time place (.enqueue task)).1 = .ok id) :
    ∃ row, row.id = id ∧ row.isAt place.location = true ∧
      (w.reach plan actor time place (.enqueue task)).2.history
        = .enqueued (plan.store place.shard) row :: w.history := by
  obtain ⟨row, hrow, -⟩ := StoreCall.exists_row_of_enqueue h
  obtain ⟨-, hid, hat⟩ := row?_eq_some_iff.1 hrow
  have heffects : plan.effects place (.enqueue task) (.ok id)
      (StoreCall.answerIn time place.location (.enqueue task) (w.transactions actor)
        (w.stores (plan.store place.shard))).2.2
        = [.enqueued (plan.store place.shard) row] := by
    rw [Plan.effects, hrow]
    rfl
  rw [← h] at heffects
  exact ⟨row, hid, hat, congrArg (· ++ w.history) heffects⟩

/-- Who may remove a row of an identifier at a place: it was picked and finished, or the removal
is on record. -/
def MayDelete (plan : Plan π ω υ) (place : Place) (history extra : List Event) (id : Int) : Prop :=
  (∃ record, record.id = id ∧ [.finished (plan.store place.shard) (place.row record),
    .picked (plan.store place.shard) (place.row record)].Sublist history) ∨
  .deleted (plan.store place.shard) place.location.table place.location.queue id ∈ extra

theorem Books.reach (h : Books plan w) (actor : Actor) (time : Instant) (place : Place)
    (c : StoreCall) (extra : List Event)
    (hextra : ∀ n row, .picked n row ∉ extra ∧ .enqueued n row ∉ extra)
    (hdelete : ∀ id, c = .delete id → MayDelete plan place w.history extra id)
    (hw' : w' = { (w.reach plan actor time place c).2 with
      history := extra ++ (w.reach plan actor time place c).2.history }) : Books plan w' := by
  subst hw'
  have heffects := @enqueued_of_mem_effects _ _ _ plan place c time (w.transactions actor)
    (w.stores (plan.store place.shard))
  refine h.grow (extra ++ plan.effects place c _ _) (List.append_assoc _ _ _).symm rfl rfl
    (fun n => ?_) (fun n row hmem => ?_) (fun n row hmem => ?_) fun n row hrow => ?_
  · show _ ≤ (if n = plan.store place.shard then _ else w.stores n).lastId
    split
    next heq =>
      subst heq
      exact StoreCall.lastId_answerIn _ _ _ _ _
    next => exact Nat.le_refl _
  · rcases List.mem_append.1 hmem with hmem | hmem
    · exact (hextra n row).1 hmem
    · obtain ⟨_, heq, -⟩ := heffects hmem
      cases heq
  · rcases List.mem_append.1 hmem with hmem | hmem
    · exact absurd hmem (hextra n row).2
    · obtain ⟨_, heq, hlt, hrow⟩ := heffects hmem
      cases heq
      refine ⟨hlt, ?_⟩
      show row ∈ (if plan.store place.shard = plan.store place.shard then _ else _ : Store).rows
      rwa [if_pos rfl]
  · show (∃ q ∈ (if n = plan.store place.shard then _ else w.stores n).rows, row.SameTask q) ∨ _
    split
    next heq =>
      subst heq
      have hcall :=
        StoreCall.exists_sameTask_answerIn hrow time place.location (w.transactions actor) c
      rcases hcall with hstays | ⟨hc, hat⟩
      · exact .inl hstays
      · obtain ⟨htable, hqueue⟩ := Row.isAt_iff.1 hat
        rcases hdelete row.id hc with ⟨record, hid, hsub⟩ | hdeleted
        · exact .inr (.inl ⟨place.row record, ⟨hid, htable.symm, hqueue.symm⟩, hsub⟩)
        · rw [← htable, ← hqueue] at hdeleted
          exact .inr (.inr (.inl (List.mem_append_left _ hdeleted)))
    next => exact .inl ⟨row, hrow, .refl row⟩

/-- A call of a store, with a fault or not, and what is put on record about it. -/
theorem Books.call (h : Books plan w) (actor : Actor) (luck : Luck) (place : Place) (c : StoreCall)
    (extra : List Event) (hextra : ∀ n row, .picked n row ∉ extra ∧ .enqueued n row ∉ extra)
    (hdelete : ∀ id, c = .delete id → MayDelete plan place w.history extra id)
    (hw' : w' = { (w.call plan actor luck place c).2 with
      history := extra ++ (w.call plan actor luck place c).2.history }) : Books plan w' := by
  unfold State.call at hw'
  match hfault : luck.fault with
  | none =>
    rw [hfault] at hw'
    exact h.reach actor luck.time place c extra hextra hdelete hw'
  | some (e, true) =>
    rw [hfault] at hw'
    exact h.reach actor luck.time place c extra hextra hdelete hw'
  | some (e, false) =>
    rw [hfault] at hw'
    subst hw'
    refine h.grow extra rfl rfl rfl (fun _ => Nat.le_refl _) (fun n row => (hextra n row).1)
      (fun n row hmem => absurd hmem (hextra n row).2) fun n row hrow => ?_
    exact .inl ⟨row, hrow, .refl row⟩

@[simp] theorem custody_call (actor : Actor) (luck : Luck) (place : Place) (c : StoreCall) :
    (w.call plan actor luck place c).2.custody = w.custody := by
  unfold State.call
  split <;> rfl

@[simp] theorem service_call (actor : Actor) (luck : Luck) (place : Place) (c : StoreCall) :
    (w.call plan actor luck place c).2.service = w.service := by
  unfold State.call
  split <;> rfl

@[simp] theorem errands_call (actor : Actor) (luck : Luck) (place : Place) (c : StoreCall) :
    (w.call plan actor luck place c).2.errands = w.errands := by
  unfold State.call
  split <;> rfl

/-! ### Requests -/

variable {actor : Actor} {d : Deed π}

theorem custody_perform (luck : Luck) : (w.perform plan actor luck d).2.custody = w.custody := by
  unfold State.perform
  split <;> simp

theorem service_perform (luck : Luck) : (w.perform plan actor luck d).2.service = w.service := by
  unfold State.perform
  split <;> simp

theorem errands_perform (luck : Luck) : (w.perform plan actor luck d).2.errands = w.errands := by
  unfold State.perform
  split <;> simp

/-- Who holds a finished task may remove its row. -/
theorem Backed.mayDelete {c : Custody} {history : List Event} (h : Backed plan history c)
    {place : Place} {call : StoreCall} (hd : c.Permits (.task place (.store call) : Deed π))
    (id : Int) (hcall : call = .delete id) : MayDelete plan place history [] id := by
  subst hcall
  obtain ⟨hfinished, record, hheld, hid⟩ := hd
  exact .inl ⟨record, hid.symm, h.finished place record hheld hfinished⟩

theorem Books.perform (h : Books plan w) (hd : (w.custody actor).Permits d) (luck : Luck) :
    Books plan (w.perform plan actor luck d).2 := by
  cases d with
  | task place call =>
    cases call with
    | store c =>
      refine h.call actor luck place c [] (fun _ _ => ⟨List.not_mem_nil, List.not_mem_nil⟩) ?_ rfl
      exact (h.backed actor).mayDelete hd
    | handOff record =>
      refine ⟨h.backed, fun place' record' hmem => ?_, h.handedOut, h.fresh, h.kept⟩
      rcases List.mem_append.1 hmem with hmem | hmem
      · exact h.jobs place' record' hmem
      · cases List.mem_singleton.1 hmem
        exact (h.backed actor).picked place record hd
    | _ => exact h
  | offer place c =>
    refine h.call actor luck place c [] (fun _ _ => ⟨List.not_mem_nil, List.not_mem_nil⟩) ?_ rfl
    rintro id rfl
    exact False.elim hd
  | _ => exact h

/-- A pick that returns a task to a worker has found its row in the store. -/
theorem id_le_lastId_of_call {luck : Luck} {place : Place} {failure : FailureSettings}
    {record : TaskRecord}
    (ha : (w.call plan actor luck place (.pick failure)).1 = .ok (some record)) :
    record.id ≤ (((w.call plan actor luck place (.pick failure)).2.stores
      (plan.store place.shard)).lastId : Int) := by
  unfold State.call at ha ⊢
  match hfault : luck.fault with
  | none =>
    rw [hfault] at ha
    have hid := StoreCall.id_le_lastId_of_pick ha
    have hlast := StoreCall.lastId_answerIn luck.time place.location (w.transactions actor)
      (.pick failure) (w.stores (plan.store place.shard))
    show record.id ≤
      ((if plan.store place.shard = plan.store place.shard then _ else _ : Store).lastId : Int)
    rw [if_pos rfl]
    exact Int.le_trans hid (Int.ofNat_le.2 hlast)
  | some (e, true) =>
    rw [hfault] at ha
    cases ha
  | some (e, false) =>
    rw [hfault] at ha
    cases ha

theorem events_consume (c : Custody) (place : Place) (task : Task π) (outcome : ConsumerOutcome) :
    plan.events c (.task place (.consume task)) outcome = if outcome = .result .finish then
      ((c.held.filter fun (other, _) => other = place).map fun (_, record) =>
        Event.finished (plan.store place.shard) (place.row record)).toList else [] := by
  match outcome with
  | .result .finish => rfl
  | .result .fail => rfl
  | .result (.reenqueue delay) => rfl
  | .error e => rfl
  | .panic p => rfl

theorem id_le_lastId_of_mem_events {luck : Luck} {n : Nat} {row : Row} {c : Custody}
    (hmem : .picked n row ∈ plan.events c d (w.perform plan actor luck d).1) :
    row.id ≤ (((w.perform plan actor luck d).2.stores n).lastId : Int) := by
  cases d with
  | task place call =>
    cases call with
    | store call =>
      cases call with
      | pick failure =>
        match ha : (w.call plan actor luck place (.pick failure)).1 with
        | .ok (some record) =>
          simp only [State.perform, ha, Plan.events, List.mem_singleton, Event.picked.injEq] at hmem
          obtain ⟨rfl, rfl⟩ := hmem
          exact id_le_lastId_of_call ha
        | .ok none =>
          simp only [State.perform, ha, Plan.events] at hmem
          cases hmem
        | .error e =>
          simp only [State.perform, ha, Plan.events] at hmem
          cases hmem
      | _ => cases hmem
    | consume task =>
      rw [State.perform, events_consume] at hmem
      split at hmem
      · obtain ⟨_, -, heq⟩ := Option.map_eq_some_iff.1 (Option.mem_toList.1 hmem)
        cases heq
      · cases hmem
    | _ => cases hmem
  | _ => cases hmem

theorem enqueued_notMem_events {n : Nat} {row : Row} {c : Custody} {a : d.Answer} :
    .enqueued n row ∉ plan.events c d a := by
  intro hmem
  unfold Plan.events at hmem
  split at hmem
  · cases List.mem_singleton.1 hmem
  · obtain ⟨_, -, heq⟩ := Option.map_eq_some_iff.1 (Option.mem_toList.1 hmem)
    cases heq
  · cases hmem

/-- What is noted about an exchange backs what is noted about the custody. -/
theorem Backed.note {c : Custody} {history : List Event} (h : Backed plan history c) {d : Deed π}
    (hd : c.Permits d) (a : d.Answer) :
    Backed plan (plan.events c d a ++ history) (c.note d a) := by
  cases d with
  | task place call =>
    cases call with
    | store call =>
      cases call with
      | pick failure =>
        match a with
        | .ok (some record) =>
          refine ⟨fun _ _ hheld => ?_, fun _ _ _ hfinished => nomatch hfinished⟩
          cases hheld
          exact List.mem_cons_self
        | .ok none => exact h
        | .error e => exact h
      | _ => exact h
    | consume task =>
      -- the consumer was given the held task, so it is this one that is finished
      obtain ⟨record, payload, hheld, -⟩ := hd
      rw [events_consume]
      refine ⟨(h.append _).picked, fun place' record' hheld' hfinished => ?_⟩
      cases hheld.symm.trans hheld'
      rw [if_pos (of_decide_eq_true hfinished), hheld, Option.filter_some,
        if_pos (decide_eq_true rfl)]
      exact (List.singleton_sublist.2 (h.picked place record hheld)).cons_cons _
    | _ => exact h
  | _ => exact h

theorem Books.note (h : Books plan w) (hd : (w.custody actor).Permits d) (a : d.Answer)
    (hpicked : ∀ n row, .picked n row ∈ plan.events (w.custody actor) d a →
      row.id ≤ ((w.stores n).lastId : Int)) : Books plan (w.note plan actor d a) where
  backed b := by
    show Backed plan (_ ++ w.history) (if b = actor then _ else _)
    split
    · exact (h.backed actor).note hd a
    · exact (h.backed b).append _
  jobs place record hmem := List.mem_append_right _ (h.jobs place record hmem)
  handedOut n row hmem := by
    rcases List.mem_append.1 hmem with hmem | hmem
    · exact hpicked n row hmem
    · exact h.handedOut n row hmem
  fresh := by
    refine List.pairwise_append.2 ⟨?_, h.fresh, ?_⟩
    · refine List.pairwise_of_forall_mem_list fun newer holder _ _ n row q heq _ => ?_
      exact absurd (heq ▸ holder) enqueued_notMem_events
    · intro newer holder _ _ n row q heq _
      exact absurd (heq ▸ holder) enqueued_notMem_events
  kept := by
    intro later n row before heq
    rcases split_of_append_eq heq with ⟨older, hes⟩ | ⟨since, rfl, hsince⟩
    · have hmem : .enqueued n row ∈ plan.events (w.custody actor) d a := by
        rw [hes]
        exact List.mem_append_right later List.mem_cons_self
      exact absurd hmem enqueued_notMem_events
    · refine (h.kept since n row before hsince).append _ fun r hr hsame => ?_
      exact .inl ⟨r, hr, hsame⟩

/-- A request that custody permits keeps the books right. -/
theorem Books.serve (h : Books plan w) (hd : (w.custody actor).Permits d) (luck : Luck) :
    Books plan (w.serve plan actor luck d).2 := by
  have hd' : ((w.perform plan actor luck d).2.custody actor).Permits d := by rwa [custody_perform]
  refine (h.perform hd luck).note hd' _ fun n row hmem => ?_
  exact id_le_lastId_of_mem_events hmem

theorem service_serve (luck : Luck) : (w.serve plan actor luck d).2.service = w.service :=
  service_perform luck

theorem errands_serve (luck : Luck) : (w.serve plan actor luck d).2.errands = w.errands :=
  errands_perform luck

theorem custody_serve (luck : Luck) (b : Actor) :
    (w.serve plan actor luck d).2.custody b = if b = actor
      then (w.custody actor).note d (w.serve plan actor luck d).1 else w.custody b := by
  show (if b = actor then ((w.perform plan actor luck d).2.custody actor).note d _
    else (w.perform plan actor luck d).2.custody b) = _
  rw [custody_perform]
  rfl

end DurableQueue.Works
