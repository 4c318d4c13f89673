import DurableQueue.Proofs.Works.Tracking

/-!
# Back-off

How long a row stays away is decided by what was noted about it: the delay of a failure by the picks
since it was last put back, the delay of a task that is put back by how often this has happened
before.

* `Reflects.reenqueueAttempts_of_picked` says that a record goes on to count the re-enqueues of its
  row until the row is put back;
* `State.Reaches` says that a call takes effect in a move;
* `Tracked.nextProcessAt_of_pick` and `Tracked.delay_of_putBack` read the delays off the invariant
  of notes;
* `backoff_follows_reenqueues` is the main statement.
-/

namespace DurableQueue

/-- A record that was picked goes on to count the re-enqueues of its row until it is put back. -/
theorem Reflects.reenqueueAttempts_of_picked {schema : Schema} {s : Store} {record : TaskRecord}
    {newer older : List RowEvent} (h : Reflects schema (newer ++ .picked record :: older) s)
    (hputs : ∀ e ∈ newer, e.putsBack record.id = false) :
    record.reenqueueAttempts
      = .clamp (History.reenqueues record.id (newer ++ .picked record :: older)) := by
  obtain ⟨hcounted, hold⟩ := h.picked record older (List.suffix_append _ _)
  have hnodup : (History.handedOut (newer ++ .picked record :: older)).Nodup :=
    h.descending.imp fun hlt => (Int.ne_of_lt hlt).symm
  have hadds : ∀ e ∈ newer, e.adds record.id = false := SharedStore.adds_eq_false hnodup hold
  rw [History.reenqueues_append hadds hputs]
  exact hcounted.reenqueueAttempts

/-- A planned delay is that of the strategy of the settings. -/
theorem Iteration.plannedDelay_eq_ok {settings : ReenqueueSettings} {record : TaskRecord}
    {delay : Delay} (h : plannedDelay settings record = .ok delay) :
    ∃ strategy, Strategy.ofSettings settings = .ok strategy ∧
      strategy.delay record.reenqueueAttempts = .ok delay := by
  unfold plannedDelay at h
  split at h
  · cases h
  next strategy hstrategy =>
    split at h
    · cases h
    next delay' hdelay =>
      cases h
      exact ⟨strategy, hstrategy, hdelay⟩

namespace Works

variable {π ω υ : Type} {plan : Plan π ω υ} {w : State π ω υ} {schemas : Nat → Schema} {g : Notes}
  {move : Move π ω} {actor : Actor} {luck : Luck} {d : Deed π} {place : Place}

/-- In a move a call takes effect in a store, which has this answer. -/
structure State.Reaches (plan : Plan π ω υ) (w : State π ω υ) (move : Move π ω) (actor : Actor)
    (luck : Luck) (place : Place) (c : StoreCall) (answer : c.Answer) : Prop where
  asked : ∃ d, w.asked plan move = some (actor, luck, d) ∧ d.call? = some (place, c)
  effect : luck.takesEffect = true
  answer : (w.reach plan actor luck.time place c).1 = answer

/-- A call that takes effect leaves in the store what it leaves there in its transaction. -/
theorem State.Reaches.stores {c : StoreCall} {answer : c.Answer}
    (h : w.Reaches plan move actor luck place c answer) :
    (w.step plan move).stores (plan.store place.shard)
      = (c.answerIn luck.time place.location (w.transactions actor)
        (w.stores (plan.store place.shard))).2.2 := by
  obtain ⟨d, hasked, hcall⟩ := h.asked
  rw [(step_of_asked hasked).1, stores_perform_of_call hcall, call_snd, h.effect, if_pos rfl]
  exact if_pos rfl

theorem Deed.eq_of_call? {c : StoreCall} (h : d.call? = some (place, c)) :
    d = .task place (.store c) ∨ d = .offer place c := by
  unfold Deed.call? at h
  split at h
  · cases h
    exact .inl rfl
  · cases h
    exact .inr rfl
  · cases h

/-! ### Delays -/

namespace Tracked

variable (h : Tracked plan schemas w g)

include h

/-- The delay of a failure is the one by the attempts that were noted. -/
theorem nextProcessAt_of_pick {failure : FailureSettings} {record : TaskRecord}
    (hreach : w.Reaches plan move actor luck place (.pick failure) (.ok (some record))) :
    record.nextProcessAt = luck.time.shift (failure.delayForAttempt
        (.clamp (History.attempts record.id (g.log (plan.store place.shard))))) ∧
      ∃ row ∈ ((w.step plan move).stores (plan.store place.shard)).rows, row.record = record := by
  obtain ⟨r, hr, rfl, hstore⟩ := StoreCall.candidate?_of_pick hreach.answer
  obtain ⟨hmem, -⟩ := Store.candidate?_mem hr
  refine ⟨?_, Store.changed (Store.claim luck.time failure) r, ?_, rfl⟩
  · have hattempts := ((h.reflects _).counted r hmem).attempts
    exact congrArg (fun n => luck.time.shift (failure.delayForAttempt n)) hattempts
  · rw [hreach.stores, hstore]
    exact Store.mem_update.2 ⟨r, hmem, (if_pos rfl).symm⟩

/-- Who puts a row back in time has picked it, and nobody has put it back in between. -/
theorem reenqueueAttempts_of_timely {record : TaskRecord}
    (hheld : (g.charge actor).held = some (place, record))
    (htimely : g.Timely (plan.store place.shard) record.id)
    (hpicks : ∀ e ∈ g.sinceLastPick actor (plan.store place.shard), e.picks record.id = false) :
    record.reenqueueAttempts
      = .clamp (History.reenqueues record.id (g.log (plan.store place.shard))) := by
  have hgood := h.tickets.good _ _ (Notes.ticket?_of_held plan w.jobs hheld)
  obtain ⟨older, hlog, -⟩ := hgood.issued
  have hlog : g.log (plan.store place.shard)
    = g.sinceLastPick actor (plan.store place.shard) ++ .picked record :: older := hlog
  have hreflects := h.reflects (plan.store place.shard)
  rw [hlog] at hreflects ⊢
  exact hreflects.reenqueueAttempts_of_picked (hgood.unused htimely hpicks)

/-- The delay of a task that is put back in time is the one that its consumer has asked for, or else
the one by the re-enqueues that were noted. -/
theorem delay_of_putBack {id : Int} {delay : Delay} {settings : ReenqueueSettings}
    (hreach : w.Reaches plan move actor luck place (.reenqueue id delay) (.ok true))
    (htimely : (g.step plan w move).Timely (plan.store place.shard) id)
    (hsettled : g.Settled place.location.queue settings) :
    ∃ record, (g.charge actor).held = some (place, record) ∧ record.id = id ∧
      ((g.charge actor).outcome = some (.result (.reenqueue (some delay))) ∨
        (g.charge actor).outcome = some (.result (.reenqueue none)) ∧
          ∃ strategy, Strategy.ofSettings settings = .ok strategy ∧
            strategy.delay (.clamp (History.reenqueues id (g.log (plan.store place.shard))))
              = .ok delay) := by
  obtain ⟨d, hasked, hcall⟩ := hreach.asked
  have htold : .putBack id ∈ w.told plan actor luck d (plan.store place.shard) := by
    rw [told_of_call hcall, if_pos ⟨hreach.effect, rfl⟩, hreach.answer]
    exact List.mem_singleton_self _
  rw [Notes.step_eq_noted hasked] at htimely
  rcases Deed.eq_of_call? hcall with rfl | rfl
  · obtain ⟨record, hheld, rfl, hdelay⟩ := h.permits hasked
    refine ⟨record, hheld, rfl, hdelay.imp_right fun ⟨houtcome, settings', hread, hplan⟩ => ?_⟩
    refine ⟨houtcome, ?_⟩
    obtain ⟨since, hsince, hpicks⟩ :=
      htimely _ (List.mem_append_left _ (List.mem_map_of_mem htold)) rfl rfl
    cases hsince
    have hcount := h.reenqueueAttempts_of_timely hheld htimely.of_noted hpicks
    obtain rfl : settings' = settings := hsettled settings' (h.read actor place settings' hread)
    rw [← hcount]
    exact Iteration.plannedDelay_eq_ok hplan
  · obtain ⟨since, hsince, -⟩ :=
      htimely _ (List.mem_append_left _ (List.mem_map_of_mem htold)) rfl rfl
    cases hsince

end Tracked

/-- A row that a call has put back is away for the delay of the call. -/
theorem State.Reaches.nextProcessAt_of_putBack {id : Int} {delay : Delay}
    (h : w.Reaches plan move actor luck place (.reenqueue id delay) (.ok true)) :
    ∃ row ∈ ((w.step plan move).stores (plan.store place.shard)).rows,
      row.id = id ∧ row.record.nextProcessAt = luck.time.shift delay := by
  obtain ⟨r, hmem, rfl, hstore⟩ := StoreCall.row_of_reenqueue h.answer
  refine ⟨Store.changed (Store.putBack luck.time delay) r, ?_, rfl, rfl⟩
  rw [h.stores, hstore]
  exact Store.mem_update.2 ⟨r, hmem, (if_pos rfl).symm⟩

/-- **Back-off follows re-enqueues.** Take any run of the works whose stores were empty, and its
next move.

A pick that returns a record hides the row for the failure delay of as many attempts as there were
picks of the row since it was last put back, or else since it was added.

Take a row that has only ever been put back as the result of a pick and before it was picked again,
and a queue whose re-enqueue settings were the same whenever they were read. Who puts the row back
has its task at hand, and hides it for the delay that the consumer has asked for, or else for the
delay that the strategy of the settings gives after as many re-enqueues as there were of the row,
however often it was picked in between. -/
theorem backoff_follows_reenqueues (plan : Plan π ω υ) (shards : List ShardId) (observers : υ)
    (schemas : Nat → Schema) (moves : List (Move π ω)) (move : Move π ω) (actor : Actor)
    (luck : Luck) (place : Place) :
    let start : State π ω υ := .fresh shards observers schemas
    let w := start.run plan moves
    let g := start.notes plan moves
    let n := plan.store place.shard
    let after := (start.run plan (moves ++ [move])).stores n
    (∀ failure record, w.Reaches plan move actor luck place (.pick failure) (.ok (some record)) →
      record.nextProcessAt = luck.time.shift
        (failure.delayForAttempt (.clamp (History.attempts record.id (g.log n)))) ∧
      ∃ row ∈ after.rows, row.record = record) ∧
    ∀ id delay settings, w.Reaches plan move actor luck place (.reenqueue id delay) (.ok true) →
      (start.notes plan (moves ++ [move])).Timely n id →
      g.Settled place.location.queue settings →
      (∃ row ∈ after.rows, row.id = id ∧ row.record.nextProcessAt = luck.time.shift delay) ∧
      ∃ record, (g.charge actor).held = some (place, record) ∧ record.id = id ∧
        ((g.charge actor).outcome = some (.result (.reenqueue (some delay))) ∨
          (g.charge actor).outcome = some (.result (.reenqueue none)) ∧
            ∃ strategy, Strategy.ofSettings settings = .ok strategy ∧
              strategy.delay (.clamp (History.reenqueues id (g.log n))) = .ok delay) := by
  intro start w g n after
  have htracked : Tracked plan schemas w g :=
    (Tracked.initial plan shards observers schemas).run moves
  have hafter : after = (w.step plan move).stores n :=
    congrArg (fun w => State.stores w n) (start.run_concat plan moves move)
  rw [hafter, start.notes_concat]
  exact ⟨fun _ _ hreach => htracked.nextProcessAt_of_pick hreach,
    fun _ _ _ hreach htimely hsettled =>
      ⟨hreach.nextProcessAt_of_putBack, htracked.delay_of_putBack hreach htimely hsettled⟩⟩

/-- A plan with one store, and settings that nobody observes. -/
def shop : Plan String Unit Unit :=
  ⟨fun _ => .text, fun _ => 0, fun _ _ _ _ => (.ok (), ())⟩

/-- Where orders are. -/
def counter : Place := ⟨"main", "orders", "tasks", none⟩

/-- Ten seconds, and five more for each time before. -/
def patience : ReenqueueSettings :=
  { retryType := .arithmetic, initialDelay := some (.ofSeconds 10),
    arithmeticStep := some (.ofSeconds 5) }

/-- A second of the row clock at which the consumer ends in a way. -/
def chance (second : Nat) (outcome : ConsumerOutcome) : Luck :=
  ⟨Instant.epoch.shift (.ofSeconds second), none, outcome⟩

/-- A step of the worker for orders. -/
def attend (second : Nat) (outcome : ConsumerOutcome) : Move String Unit :=
  .turn "orders" "main" 0 (chance second outcome)

/-- An order that the consumer puts off, panics over at the second attempt, and is about to put off
again, after some steps of the third attempt. -/
def puttingOff (steps : Nat) : List (Move String Unit) :=
  [.register ⟨counter.location, { reenqueue := patience }⟩ false, .startAll,
    .call 0 counter .begin (chance 0 (.result .fail)),
    .call 0 counter (.enqueue {}) (chance 0 (.result .fail))] ++
  List.replicate 24 (attend 0 (.result (.reenqueue none))) ++
  .pass 100000000000 :: List.replicate 23 (attend 100 (.panic (.text "no stock"))) ++
  .pass 100000000000 :: List.replicate steps (attend 1000 (.result (.reenqueue none)))

/-- The third attempt puts the order off. -/
def again : Move String Unit := attend 1000 (.result (.reenqueue none))

/-- Stores without further columns. -/
def plain (_ : Nat) : Schema := {}

set_option maxRecDepth 20000 in
/-- The third attempt hides the order for two minutes, since it is the second one since the order
was put off; to put it off again takes fifteen seconds, since that has happened once before. -/
theorem order_is_put_off_for_longer :
    (∃ row ∈ (((State.fresh ["main"] () plain).run shop (puttingOff 9 ++ [again])).stores 0).rows,
      row.record.totalAttempts.val = 3 ∧ row.record.nextProcessAt
        = (Instant.epoch.shift (.ofSeconds 1000)).shift (.ofSeconds 120)) ∧
    ∃ row ∈ (((State.fresh ["main"] () plain).run shop (puttingOff 20 ++ [again])).stores 0).rows,
      row.id = 1 ∧ row.record.nextProcessAt
        = (Instant.epoch.shift (.ofSeconds 1000)).shift (.ofSeconds 15) ∧
      ∃ strategy, Strategy.ofSettings patience = .ok strategy ∧
        strategy.delay (.clamp 1) = .ok (.ofSeconds 15) := by
  obtain ⟨hpick, -⟩ := backoff_follows_reenqueues shop ["main"] () plain (puttingOff 9) again
    (.worker "orders" "main" 0) (chance 1000 (.result (.reenqueue none))) counter
  obtain ⟨-, hput⟩ := backoff_follows_reenqueues shop ["main"] () plain (puttingOff 20) again
    (.worker "orders" "main" 0) (chance 1000 (.result (.reenqueue none))) counter
  constructor
  · obtain ⟨record, hanswer, hid, htotal⟩ : ∃ record,
        (((State.fresh ["main"] () plain).run shop (puttingOff 9)).reach shop
          (.worker "orders" "main" 0) (chance 1000 (.result (.reenqueue none))).time counter
          (.pick {})).1 = .ok (some record) ∧ record.id = 1 ∧ record.totalAttempts.val = 3 :=
      ⟨_, rfl, rfl, rfl⟩
    obtain ⟨hnext, row, hrow, rfl⟩ := hpick {} record ⟨⟨_, rfl, rfl⟩, rfl, hanswer⟩
    have hattempts : History.attempts 1 (((State.fresh ["main"] () plain).notes shop
        (puttingOff 9)).log (shop.store counter.shard)) = 1 := rfl
    rw [hid, hattempts] at hnext
    exact ⟨row, hrow, htotal, hnext⟩
  · have hputBacks : ((State.fresh ["main"] () plain).notes shop
        (puttingOff 20 ++ [again])).putBacks = [⟨0, 1, some []⟩, ⟨0, 1, some []⟩] := rfl
    have hreads : ((State.fresh ["main"] () plain).notes shop (puttingOff 20)).reads
        = [("orders", patience), ("orders", patience)] := rfl
    have hreenqueues : History.reenqueues 1 (((State.fresh ["main"] () plain).notes shop
        (puttingOff 20)).log (shop.store counter.shard)) = 1 := rfl
    have houtcome : (((State.fresh ["main"] () plain).notes shop (puttingOff 20)).charge
        (.worker "orders" "main" 0)).outcome = some (.result (.reenqueue none)) := rfl
    have htimely : ((State.fresh ["main"] () plain).notes shop (puttingOff 20 ++ [again])).Timely
        (shop.store counter.shard) 1 := by
      intro p hp _ _
      rw [hputBacks] at hp
      obtain rfl : p = ⟨0, 1, some []⟩ := by simpa using hp
      exact ⟨[], rfl, fun _ he => nomatch he⟩
    have hsettled : ((State.fresh ["main"] () plain).notes shop (puttingOff 20)).Settled
        counter.location.queue patience := by
      intro read hread
      rw [hreads] at hread
      have hread : counter.location.queue = "orders" ∧ read = patience := by simpa using hread
      exact hread.2
    obtain ⟨⟨row, hrow, hid, hnext⟩, -, -, -, hdelay⟩ :=
      hput 1 (.ofSeconds 15) patience ⟨⟨_, rfl, rfl⟩, rfl, rfl⟩ htimely hsettled
    rw [houtcome, hreenqueues] at hdelay
    refine ⟨row, hrow, hid, hnext, ?_⟩
    rcases hdelay with hasked | ⟨-, hstrategy⟩
    · cases hasked
    · exact hstrategy

end Works

end DurableQueue
