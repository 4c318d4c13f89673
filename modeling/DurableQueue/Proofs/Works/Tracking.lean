import DurableQueue.Proofs.Works.Tickets

/-!
# Keeping track of a run

The notes about a run are right about the state that it has led to.

* `Notes.ticket?` are the tickets of a run: of everybody who has a task at hand, and of the jobs
  that wait;
* `Tracked` is the invariant: stores reflect their logs, programs keep the rule for putting rows
  back, tickets are good, and settings that somebody has in mind were read;
* `Tracked.ticketed_noted` is the step lemma of tickets for requests, by the request, and
  `Tracked.ticketed_begun` the one for jobs that begin;
* `Tracked.step` and `Tracked.run` say that every move and every run keep the invariant.
-/

namespace DurableQueue

/-- Only a call that puts a row back tells that it was put back. -/
theorem StoreCall.eq_reenqueue_of_told {now : Instant} {l : Location} {c : StoreCall}
    {a : c.Answer} {e : RowEvent} {id : Int} (he : e ∈ c.told now l a)
    (hput : e.putsBack id = true) : ∃ delay, c = .reenqueue id delay := by
  unfold told at he
  split at he
  · rw [List.mem_singleton.1 he] at hput
    cases hput
  · rw [List.mem_singleton.1 he] at hput
    cases hput
  · rw [List.mem_singleton.1 he] at hput
    obtain rfl := of_decide_eq_true hput
    exact ⟨_, rfl⟩
  · cases he

namespace Works

variable {π ω υ : Type} {plan : Plan π ω υ} {w : State π ω υ} {schemas : Nat → Schema} {g : Notes}
  {move : Move π ω} {actor : Actor} {luck : Luck} {d : Deed π} {place : Place}

/-- The works before anything has happened, with stores of these columns. -/
def State.fresh (shards : List ShardId) (observers : υ) (schemas : Nat → Schema) : State π ω υ :=
  .initial shards observers fun n => .empty (schemas n)

/-! ### The tickets of a run -/

/-- The ticket of who has a task at hand, or of a job that waits. -/
def Notes.ticket? (g : Notes) (plan : Plan π ω υ) (jobs : List (Place × TaskRecord)) :
    Holder → Option Ticket
  | .actor a => (g.charge a).held.map fun (place, record) =>
    ⟨plan.store place.shard, g.stamp a, record⟩
  | .job i => (jobs.zip g.stamps)[i]?.map fun ((place, record), stamp) =>
    ⟨plan.store place.shard, stamp, record⟩

/-- All tickets of a run are good, and nobody has the ticket of somebody else. -/
def Notes.Ticketed (g : Notes) (plan : Plan π ω υ) (jobs : List (Place × TaskRecord)) : Prop :=
  Tickets g.log g.Timely (g.ticket? plan jobs)

/-- The notes about a run are right about the state that it has led to. -/
structure Tracked (plan : Plan π ω υ) (schemas : Nat → Schema) (w : State π ω υ) (g : Notes) :
    Prop where
  reflects : ∀ n, Reflects (schemas n) (g.log n) (w.stores n)
  watched : Watched charges g.charge w
  waiting : g.stamps.length = w.jobs.length
  tickets : g.Ticketed plan w.jobs
  read : ∀ a place settings, (g.charge a).settings = some (place, settings) →
    (place.location.queue, settings) ∈ g.reads

/-! ### Requests -/

/-- The notes after a request. -/
def Notes.noted (g : Notes) (plan : Plan π ω υ) (w : State π ω υ) (actor : Actor) (luck : Luck)
    (d : Deed π) : Notes :=
  { g.exchange plan w actor luck d with
    charge := fun b =>
      if b = actor then (g.charge actor).note d (w.perform plan actor luck d).1 else g.charge b }

/-- The notes after a job has begun. -/
def Notes.begun (g : Notes) (w : State π ω υ) (i : Nat) (place : Place) (record : TaskRecord) :
    Notes :=
  { g.begin w i with
    charge := fun b =>
      if b = .errand w.errands.length then { held := some (place, record) } else g.charge b }

namespace Notes

theorem step_eq_begun {i : Nat} {record : TaskRecord} (h : w.asked plan move = none)
    (hbegun : w.begun? move = some (i, place, record)) :
    g.step plan w move = g.begun w i place record := by
  rw [step_of_begun h hbegun, Watch.after_of_begun h hbegun]
  rfl

theorem step_eq_noted (h : w.asked plan move = some (actor, luck, d)) :
    g.step plan w move = g.noted plan w actor luck d := by
  rw [step_of_asked h, Watch.after_of_asked h]
  rfl

/-- A row that was put back stays on record. -/
theorem Timely.of_noted {n : Nat} {id : Int}
    (h : (g.noted plan w actor luck d).Timely n id) : g.Timely n id :=
  fun p hp => h p (List.mem_append_right _ hp)

theorem stamp_noted_of_ne {a : Actor} (ha : a ≠ actor) :
    (g.noted plan w actor luck d).stamp a = g.stamp a := by
  dsimp only [noted, exchange]
  split
  · exact if_neg ha
  · rfl

/-- Who has a task at hand has a ticket for it. -/
theorem ticket?_of_held (plan : Plan π ω υ) (jobs : List (Place × TaskRecord))
    {record : TaskRecord} (hheld : (g.charge actor).held = some (place, record)) :
    g.ticket? plan jobs (.actor actor)
      = some ⟨plan.store place.shard, g.stamp actor, record⟩ :=
  congrArg (Option.map _) hheld

/-- The last of the jobs has the ticket that it was handed. -/
theorem ticket?_append {jobs : List (Place × TaskRecord)} (hwaiting : g.stamps.length = jobs.length)
    (place : Place) (record : TaskRecord) (stamp i : Nat) :
    ({ g with stamps := g.stamps ++ [stamp] } : Notes).ticket? plan (jobs ++ [(place, record)])
      (.job i)
      = if i = jobs.length then some ⟨plan.store place.shard, stamp, record⟩
        else g.ticket? plan jobs (.job i) := by
  have hzip : (jobs.zip g.stamps).length = jobs.length := by
    rw [List.length_zip, hwaiting, Nat.min_self]
  show (List.zip (jobs ++ [(place, record)]) (g.stamps ++ [stamp]))[i]?.map _ = _
  rw [List.zip_append hwaiting.symm]
  rcases Nat.lt_trichotomy i jobs.length with hlt | rfl | hlt
  · rw [if_neg (Nat.ne_of_lt hlt), List.getElem?_append_left (hzip ▸ hlt)]
    rfl
  · rw [if_pos rfl, List.getElem?_append_right (Nat.le_of_eq hzip), hzip, Nat.sub_self]
    rfl
  · have hnone : g.ticket? plan jobs (.job i) = none :=
      congrArg (Option.map _) (List.getElem?_eq_none (by omega))
    rw [if_neg (Nat.ne_of_gt hlt), hnone, List.getElem?_eq_none (by simp; omega)]
    rfl

/-- Others have the tickets that they had. -/
theorem ticket?_noted_of_ne (jobs : List (Place × TaskRecord)) {a : Actor} (ha : a ≠ actor) :
    (g.noted plan w actor luck d).ticket? plan jobs (.actor a)
      = g.ticket? plan jobs (.actor a) := by
  have hcharge : (g.noted plan w actor luck d).charge a = g.charge a := if_neg ha
  show ((g.noted plan w actor luck d).charge a).held.map _ = (g.charge a).held.map _
  rw [hcharge, stamp_noted_of_ne ha]

/-- A call of a store is no business of jobs that wait. -/
theorem ticket?_noted_of_call {c : StoreCall} (hcall : d.call? = some (place, c))
    (jobs : List (Place × TaskRecord)) {x : Holder} (hx : x ≠ .actor actor) :
    (g.noted plan w actor luck d).ticket? plan jobs x = g.ticket? plan jobs x := by
  cases x with
  | actor a => exact ticket?_noted_of_ne jobs fun ha => hx (congrArg Holder.actor ha)
  | job i =>
    have hstamps : (g.noted plan w actor luck d).stamps = g.stamps := by
      cases d with
      | task place call =>
        cases call with
        | handOff record => cases hcall
        | _ => rfl
      | _ => rfl
    show (jobs.zip (g.noted plan w actor luck d).stamps)[i]?.map _ = (jobs.zip g.stamps)[i]?.map _
    rw [hstamps]

end Notes

theorem jobs_call (actor : Actor) (luck : Luck) (place : Place) (c : StoreCall) :
    (w.call plan actor luck place c).2.jobs = w.jobs := by
  unfold State.call
  split <;> rfl

/-- A request tells of a row that was put back only if it is to put it back. -/
theorem call?_of_told {n : Nat} {e : RowEvent} {id : Int} (he : e ∈ w.told plan actor luck d n)
    (hput : e.putsBack id = true) :
    ∃ place delay, d.call? = some (place, .reenqueue id delay) ∧ n = plan.store place.shard := by
  unfold State.told at he
  split at he
  · cases he
  next place c hcall =>
    split at he
    next hn =>
      obtain ⟨delay, rfl⟩ := StoreCall.eq_reenqueue_of_told he hput
      exact ⟨place, delay, hcall, hn.2⟩
    · cases he

/-- Other requests put no row back. -/
theorem putsBack_told (hd : ∀ place id delay, d.call? ≠ some (place, .reenqueue id delay)) (n : Nat)
    (id : Int) : ∀ e ∈ w.told plan actor luck d n, e.putsBack id = false := by
  intro e he
  by_contra hput
  obtain ⟨place, delay, hcall, -⟩ := call?_of_told he (eq_true_of_ne_false hput)
  exact hd place id delay hcall

/-- A pick tells of the record that has got back. -/
theorem told_of_picked {failure : FailureSettings} {record : TaskRecord}
    (h : (w.call plan actor luck place (.pick failure)).1 = .ok (some record)) (n : Nat) :
    w.told plan actor luck (.task place (.store (.pick failure))) n
      = if n = plan.store place.shard then [.picked record] else [] := by
  -- the answer has got back, so it is that of the store
  have hfault : luck.fault = none := by
    cases hfault : luck.fault with
    | none => rfl
    | some fault =>
      obtain ⟨e, reached⟩ := fault
      cases reached <;> simp [State.call, hfault, StoreCall.failure] at h
  have hreach : (w.reach plan actor luck.time place (.pick failure)).1 = .ok (some record) := by
    simpa only [State.call, hfault] using h
  rw [told_of_call (show Deed.call? (.task place (.store (.pick failure)) : Deed π) = _ from rfl),
    hreach]
  simp [Luck.takesEffect, hfault, StoreCall.told]

namespace Tracked

variable (h : Tracked plan schemas w g)

include h

/-- Who makes a request of an iteration keeps the rule. -/
theorem permits {call : TaskCall π}
    (hasked : w.asked plan move = some (actor, luck, .task place call)) :
    (g.charge actor).Permits (.task place call : Deed π) := by
  refine h.watched.permits charges_lawful hasked fun n hn => ?_
  subst hn
  obtain ⟨_, _, -, heq⟩ := State.call_of_user hasked
  cases heq

/-- A request that changes neither tasks at hand nor jobs. -/
theorem ticketed_of_eq (hjobs : (w.perform plan actor luck d).2.jobs = w.jobs)
    (hheld : ((g.charge actor).note d (w.perform plan actor luck d).1).held = (g.charge actor).held)
    (hstamp : (g.noted plan w actor luck d).stamp = g.stamp)
    (hstamps : (g.noted plan w actor luck d).stamps = g.stamps)
    (hput : ∀ n id, (g.noted plan w actor luck d).Timely n id →
      ∀ e ∈ w.told plan actor luck d n, e.putsBack id = false) :
    (g.noted plan w actor luck d).Ticketed plan (w.perform plan actor luck d).2.jobs := by
  refine h.tickets.grow (fun _ => rfl) (fun _ _ => Notes.Timely.of_noted) (fun x t hx => hx ▸ ?_)
    fun _ t _ htimely _ => hput _ _ htimely
  cases x with
  | actor a =>
    by_cases ha : a = actor
    · subst ha
      have hcharge : ((g.noted plan w a luck d).charge a).held = (g.charge a).held :=
        (congrArg Charge.held (if_pos rfl)).trans hheld
      show (g.charge a).held.map _ = ((g.noted plan w a luck d).charge a).held.map _
      rw [hcharge, hstamp]
    · exact (Notes.ticket?_noted_of_ne _ ha).symm
  | job i =>
    show (w.jobs.zip g.stamps)[i]?.map _
      = (List.zip _ (g.noted plan w actor luck d).stamps)[i]?.map _
    rw [hjobs, hstamps]

/-- A call after which there is no task at hand, and by which no row is put back that others have a
good ticket for. -/
theorem ticketed_of_none {c : StoreCall} (hcall : d.call? = some (place, c))
    (hheld : ((g.noted plan w actor luck d).charge actor).held = none)
    (hothers : ∀ x t, x ≠ .actor actor → g.ticket? plan w.jobs x = some t →
      (g.noted plan w actor luck d).Timely t.store t.record.id →
      (∀ e ∈ t.since g.log, e.picks t.record.id = false) →
        ∀ e ∈ w.told plan actor luck d t.store, e.putsBack t.record.id = false) :
    (g.noted plan w actor luck d).Ticketed plan w.jobs := by
  have hne (x : Holder) (t : Ticket)
      (hx : (g.noted plan w actor luck d).ticket? plan w.jobs x = some t) : x ≠ .actor actor := by
    rintro rfl
    have hnone : (g.noted plan w actor luck d).ticket? plan w.jobs (.actor actor) = none :=
      congrArg (Option.map _) hheld
    cases hnone.symm.trans hx
  have hsub (x : Holder) (t : Ticket)
      (hx : (g.noted plan w actor luck d).ticket? plan w.jobs x = some t) :
      g.ticket? plan w.jobs x = some t :=
    (Notes.ticket?_noted_of_call hcall w.jobs (hne x t hx)).symm.trans hx
  refine h.tickets.grow (fun _ => rfl) (fun _ _ => Notes.Timely.of_noted) hsub
    fun x t hx htimely hpicks => hothers x t (hne x t hx) (hsub x t hx) htimely fun e he => ?_
  exact hpicks e (List.mem_append_right _ he)

/-- A pick issues a ticket, if its answer gets back. -/
theorem ticketed_pick (actor : Actor) (luck : Luck) (place : Place) (failure : FailureSettings) :
    (g.noted plan w actor luck (.task place (.store (.pick failure)))).Ticketed plan w.jobs := by
  have hcall : Deed.call? (.task place (.store (.pick failure)) : Deed π)
      = some (place, .pick failure) := rfl
  have hno (place' : Place) (id : Int) (delay : Delay) :
      Deed.call? (.task place (.store (.pick failure)) : Deed π)
        ≠ some (place', .reenqueue id delay) := by
    simp [Deed.call?]
  have hcharge : (g.noted plan w actor luck (.task place (.store (.pick failure)))).charge actor
      = (g.charge actor).note (.task place (.store (.pick failure)) : Deed π)
        (w.call plan actor luck place (.pick failure)).1 := if_pos rfl
  match hanswer : (w.call plan actor luck place (.pick failure)).1 with
  | .ok none =>
    rw [hanswer] at hcharge
    exact h.ticketed_of_none hcall (congrArg Charge.held hcharge) fun _ _ _ _ _ _ =>
      putsBack_told hno _ _
  | .error e =>
    rw [hanswer] at hcharge
    exact h.ticketed_of_none hcall (congrArg Charge.held hcharge) fun _ _ _ _ _ _ =>
      putsBack_told hno _ _
  | .ok (some record) =>
    rw [hanswer] at hcharge
    have htold := told_of_picked hanswer
    have hticket : (g.noted plan w actor luck (.task place (.store (.pick failure)))).ticket? plan
        w.jobs (.actor actor) = some ⟨plan.store place.shard, _, record⟩ :=
      congrArg (Option.map _) (congrArg Charge.held hcharge)
    refine h.tickets.issue (fun y hy => Notes.ticket?_noted_of_call hcall w.jobs hy) hticket ?_
      (fun n hn => ?_) (if_pos rfl) fun _ _ => Notes.Timely.of_noted
    · show w.told plan actor luck _ _ ++ g.log _ = _
      rw [htold, if_pos rfl]
      rfl
    · show w.told plan actor luck _ _ ++ g.log _ = _
      rw [htold, if_neg hn]
      rfl

/-- Who puts a row back has used the ticket up. Nobody else has a good one for the row, unless it
was picked since. -/
theorem ticketed_putBack {id : Int} {delay : Delay}
    (hasked : w.asked plan move = some (actor, luck, .task place (.store (.reenqueue id delay)))) :
    (g.noted plan w actor luck (.task place (.store (.reenqueue id delay)))).Ticketed plan
      w.jobs := by
  obtain ⟨record, hheld, rfl, -⟩ := h.permits hasked
  have hheld' : ((g.noted plan w actor luck
      (.task place (.store (.reenqueue record.id delay)))).charge actor).held = none :=
    congrArg Charge.held (if_pos rfl)
  refine h.ticketed_of_none rfl hheld' fun x t hx ht htimely hpicks e he => ?_
  by_contra hput
  obtain ⟨place', delay', hcall, hstore⟩ := call?_of_told he (eq_true_of_ne_false hput)
  obtain ⟨rfl, hid⟩ : place = place' ∧ record.id = t.record.id := by
    simp only [Deed.call?, Option.some.injEq, Prod.mk.injEq, StoreCall.reenqueue.injEq] at hcall
    exact ⟨hcall.1, hcall.2.1⟩
  -- the two tickets are different, so the row was picked after one of them
  have hown := Notes.ticket?_of_held plan w.jobs hheld
  have hstamp : g.stamp actor ≠ t.stamp := fun heq =>
    hx (h.tickets.distinct x (.actor actor) t _ ht hown hstore heq.symm)
  rcases (h.tickets.good x t ht).issued.followed (h.tickets.good _ _ hown).issued hstore.symm hid
    hstamp with ⟨e', he', hpick⟩ | ⟨e', he', hpick⟩
  · rw [hpicks e' he'] at hpick
    cases hpick
  · -- the row would be put back late
    rw [hstore] at he
    obtain ⟨since, hsince, hnone⟩ := htimely _ (List.mem_append_left _ (List.mem_map_of_mem he))
      hstore.symm hid
    cases hsince
    rw [hnone e' he'] at hpick
    cases hpick

/-- Who hands a task off passes the ticket on to the job. -/
theorem ticketed_handOff {record : TaskRecord}
    (hasked : w.asked plan move = some (actor, luck, .task place (.handOff record))) :
    (g.noted plan w actor luck (.task place (.handOff record))).Ticketed plan
      (w.jobs ++ [(place, record)]) := by
  have hheld : (g.charge actor).held = some (place, record) := h.permits hasked
  have hnone : (g.noted plan w actor luck (.task place (.handOff record))).ticket? plan
      (w.jobs ++ [(place, record)]) (.actor actor) = none :=
    congrArg (Option.map _) (congrArg Charge.held (if_pos rfl))
  have hjob (i : Nat) : (g.noted plan w actor luck (.task place (.handOff record))).ticket? plan
      (w.jobs ++ [(place, record)]) (.job i) = if i = w.jobs.length
        then g.ticket? plan w.jobs (.actor actor) else g.ticket? plan w.jobs (.job i) := by
    rw [Notes.ticket?_of_held plan w.jobs hheld]
    exact Notes.ticket?_append h.waiting place record (g.stamp actor) i
  refine h.tickets.pass
    (fun
      | .job i => if i = w.jobs.length then .actor actor else .job i
      | x => x)
    (fun x t hx => ?_) fun x y t t' hx hy heq => ?_
  · cases x with
    | actor a =>
      have ha : a ≠ actor := by
        rintro rfl
        cases hnone.symm.trans hx
      exact (Notes.ticket?_noted_of_ne _ ha).symm.trans hx
    | job i =>
      rw [← hx, hjob]
      show g.ticket? plan w.jobs (if i = w.jobs.length then _ else _) = _
      split <;> rfl
  · have hactor (x : Holder) (t : Ticket)
        (hx : (g.noted plan w actor luck (.task place (.handOff record))).ticket? plan
          (w.jobs ++ [(place, record)]) x = some t) : x ≠ .actor actor := by
      rintro rfl
      cases hnone.symm.trans hx
    have hx := hactor x t hx
    have hy := hactor y t' hy
    cases x <;> cases y <;> grind

/-- A row that a user or a producer puts back is not put back as the result of a pick. -/
theorem ticketed_offer (c : StoreCall) :
    (g.noted plan w actor luck (.offer place c)).Ticketed plan
      (w.perform plan actor luck (.offer place c)).2.jobs := by
  refine h.ticketed_of_eq (jobs_call actor luck place c) rfl rfl rfl fun n id htimely e he => ?_
  by_contra hput
  obtain ⟨place', delay, hcall, rfl⟩ := call?_of_told he (eq_true_of_ne_false hput)
  cases hcall
  obtain ⟨since, hsince, -⟩ := htimely _ (List.mem_append_left _ (List.mem_map_of_mem he)) rfl rfl
  cases hsince

theorem ticketed_noted (hasked : w.asked plan move = some (actor, luck, d)) :
    (g.noted plan w actor luck d).Ticketed plan (w.perform plan actor luck d).2.jobs := by
  cases d with
  | task place call =>
    cases call with
    | store c =>
      have hjobs : (w.perform plan actor luck (.task place (.store c))).2.jobs = w.jobs :=
        jobs_call actor luck place c
      cases c with
      | pick failure =>
        rw [hjobs]
        exact h.ticketed_pick actor luck place failure
      | reenqueue id delay =>
        rw [hjobs]
        exact h.ticketed_putBack hasked
      | _ =>
        refine h.ticketed_of_eq hjobs rfl rfl rfl fun _ _ _ => putsBack_told ?_ _ _
        simp [Deed.call?]
    | handOff record => exact h.ticketed_handOff hasked
    | _ =>
      refine h.ticketed_of_eq rfl rfl rfl rfl fun _ _ _ => putsBack_told ?_ _ _
      simp [Deed.call?]
  | offer place c => exact h.ticketed_offer c
  | _ =>
    refine h.ticketed_of_eq rfl rfl rfl rfl fun _ _ _ => putsBack_told ?_ _ _
    simp [Deed.call?]

/-! ### Jobs -/

/-- A job that begins takes the ticket of its task. -/
theorem ticketed_begun {i : Nat} {record : TaskRecord} (hjob : w.jobs[i]? = some (place, record)) :
    (g.begun w i place record).Ticketed plan (w.jobs.eraseIdx i) := by
  have herrand : (g.begun w i place record).ticket? plan (w.jobs.eraseIdx i)
      (.actor (.errand w.errands.length)) = g.ticket? plan w.jobs (.job i) := by
    obtain ⟨hi, -⟩ := List.getElem?_eq_some_iff.1 hjob
    have hzip : (w.jobs.zip g.stamps)[i]? = some ((place, record), g.stamps.getD i 0) := by
      rw [List.getElem?_zip_eq_some, List.getD_eq_getElem?_getD]
      exact ⟨hjob, by simp [h.waiting, hi]⟩
    have hstamp : (g.begun w i place record).stamp (.errand w.errands.length)
        = g.stamps.getD i 0 := if_pos rfl
    have hheld : ((g.begun w i place record).charge (.errand w.errands.length)).held
        = some (place, record) := congrArg Charge.held (if_pos rfl)
    rw [Notes.ticket?_of_held plan _ hheld, hstamp]
    show _ = (w.jobs.zip g.stamps)[i]?.map _
    rw [hzip]
    rfl
  have hactor (a : Actor) (ha : a ≠ .errand w.errands.length) :
      (g.begun w i place record).ticket? plan (w.jobs.eraseIdx i) (.actor a)
        = g.ticket? plan w.jobs (.actor a) := by
    have hcharge : (g.begun w i place record).charge a = g.charge a := if_neg ha
    have hstamp : (g.begun w i place record).stamp a = g.stamp a := if_neg ha
    show ((g.begun w i place record).charge a).held.map _ = (g.charge a).held.map _
    rw [hcharge, hstamp]
  have hrest (j : Nat) : (g.begun w i place record).ticket? plan (w.jobs.eraseIdx i) (.job j)
      = g.ticket? plan w.jobs (.job (if j < i then j else j + 1)) := by
    show (List.zip (w.jobs.eraseIdx i) (g.stamps.eraseIdx i))[j]?.map _
      = (w.jobs.zip g.stamps)[_]?.map _
    simp only [List.zip, List.getElem?_zipWith, List.getElem?_eraseIdx]
    by_cases hj : j < i <;> simp only [hj, if_true, if_false]
  refine h.tickets.pass
    (fun
      | .actor a => if a = .errand w.errands.length then .job i else .actor a
      | .job j => .job (if j < i then j else j + 1))
    (fun x t hx => ?_) fun x y t t' hx hy heq => ?_
  · cases x with
    | actor a =>
      by_cases ha : a = .errand w.errands.length
      · subst ha
        rw [← hx, herrand]
        exact congrArg _ (if_pos rfl)
      · rw [← hx, hactor a ha]
        exact congrArg _ (if_neg ha)
    | job j => exact (hrest j).symm.trans hx
  · cases x <;> cases y <;> grind

/-! ### Moves -/

/-- There is a number for each job that waits. -/
theorem waiting_noted (actor : Actor) (luck : Luck) (d : Deed π) :
    (g.noted plan w actor luck d).stamps.length = (w.perform plan actor luck d).2.jobs.length := by
  cases d with
  | task place call =>
    cases call with
    | store c => exact h.waiting.trans (congrArg _ (jobs_call actor luck place c)).symm
    | handOff record =>
      show (g.stamps ++ [g.stamp actor]).length = (w.jobs ++ [(place, record)]).length
      rw [List.length_append, List.length_append, h.waiting]
      rfl
    | _ => exact h.waiting
  | offer place c => exact h.waiting.trans (congrArg _ (jobs_call actor luck place c)).symm
  | _ => exact h.waiting

/-- Settings that somebody has in mind were read. -/
theorem read_noted (actor : Actor) (luck : Luck) (d : Deed π) (a : Actor) (place : Place)
    (settings : ReenqueueSettings)
    (hsettings : ((g.noted plan w actor luck d).charge a).settings = some (place, settings)) :
    (place.location.queue, settings) ∈ (g.noted plan w actor luck d).reads := by
  have hold (hread : (g.charge a).settings = some (place, settings)) :
      (place.location.queue, settings) ∈ (g.noted plan w actor luck d).reads := by
    have hmem := h.read a place settings hread
    dsimp only [Notes.noted, Notes.exchange]
    split
    · exact List.mem_cons_of_mem _ hmem
    · exact hmem
  by_cases ha : a = actor
  · subst ha
    have hcharge : (g.noted plan w a luck d).charge a
      = (g.charge a).note d (w.perform plan a luck d).1 := if_pos rfl
    rw [hcharge] at hsettings
    cases d with
    | task place' call =>
      cases call with
      | reenqueueSettings =>
        cases hsettings
        exact List.mem_cons_self
      | store c =>
        cases c with
        | pick failure =>
          -- nothing was read since
          have hnone (answer : (StoreCall.pick failure).Answer) : ((g.charge a).note
              (.task place' (.store (.pick failure)) : Deed π) answer).settings = none := by
            match answer with
            | .ok (some record) => rfl
            | .ok none => rfl
            | .error e => rfl
          cases (hnone _).symm.trans hsettings
        | _ => exact hold hsettings
      | _ => exact hold hsettings
    | _ => exact hold hsettings
  · exact hold ((congrArg Charge.settings (if_neg ha)).symm.trans hsettings)

/-- Every move keeps notes right. -/
theorem step (move : Move π ω) : Tracked plan schemas (w.step plan move) (g.step plan w move) := by
  have hreflects (n : Nat) :
      Reflects (schemas n) ((g.step plan w move).log n) ((w.step plan move).stores n) :=
    Notes.reflects_step h.reflects move n
  have hwatched : Watched charges (g.step plan w move).charge (w.step plan move) :=
    h.watched.step charges_lawful move
  match hasked : w.asked plan move with
  | some (actor, luck, d) =>
    rw [Notes.step_eq_noted hasked] at hreflects hwatched ⊢
    refine ⟨hreflects, hwatched, ?_, ?_, h.read_noted actor luck d⟩
    · rw [(step_of_asked hasked).2.1]
      exact h.waiting_noted actor luck d
    · rw [(step_of_asked hasked).2.1]
      exact h.ticketed_noted hasked
  | none =>
    have hjobs := jobs_step_of_not_asked hasked
    match hbegun : w.begun? move with
    | none =>
      rw [Notes.step_of_none hasked hbegun] at hreflects hwatched ⊢
      rw [hbegun] at hjobs
      refine ⟨hreflects, hwatched, ?_, ?_, h.read⟩
      · rw [hjobs]
        exact h.waiting
      · rw [hjobs]
        exact h.tickets
    | some (i, place, record) =>
      rw [Notes.step_eq_begun hasked hbegun] at hreflects hwatched ⊢
      rw [hbegun] at hjobs
      have hjob : w.jobs[i]? = some (place, record) := State.job_of_begun? hbegun
      obtain ⟨hi, -⟩ := List.getElem?_eq_some_iff.1 hjob
      refine ⟨hreflects, hwatched, ?_, ?_, fun a place' settings hsettings => ?_⟩
      · rw [hjobs, List.length_eraseIdx_of_lt hi, ← h.waiting]
        exact List.length_eraseIdx_of_lt (h.waiting ▸ hi)
      · rw [hjobs]
        exact h.ticketed_begun hjob
      · by_cases ha : a = .errand w.errands.length
        · -- a job begins with nothing in mind
          have hnone : ((g.begun w i place record).charge a).settings = none :=
            congrArg Charge.settings (if_pos ha)
          cases hnone.symm.trans hsettings
        · refine h.read a place' settings ?_
          exact (congrArg Charge.settings (if_neg ha)).symm.trans hsettings

omit h in
theorem initial (plan : Plan π ω υ) (shards : List ShardId) (observers : υ)
    (schemas : Nat → Schema) :
    Tracked plan schemas (.fresh shards observers schemas) {} where
  reflects n := .empty (schemas n)
  watched := .initial charges _ shards observers _
  waiting := rfl
  tickets := .none fun x => by cases x <;> rfl
  read _ _ _ hsettings := by cases hsettings

/-- Every run keeps notes right. -/
theorem run (moves : List (Move π ω)) : Tracked plan schemas (w.run plan moves)
    (moves.foldl (fun (w, g) move => (w.step plan move, g.step plan w move)) (w, g)).2 := by
  induction moves generalizing w g with
  | nil => exact h
  | cons move moves ih => exact ih (h.step move)

end Tracked

end Works

end DurableQueue
