import DurableQueue.Proofs.Works.Agreement
import DurableQueue.Service.Awaiting

/-!
# Registered queues

Whatever moves the works make: every queue in service has exactly one pool for each shard, a
registration adds a whole queue or nothing, and what is asked of a queue that is not registered is
refused.

* `LiveQueue.HasPools` says on which shards a queue has pools, and `Service.Housed` that every queue
  of a service has them on its shards;
* `Service.Enrolled` says what a registration comes to, `Service.Added` what is added, and
  `Service.Unknown` that everything is refused that is asked of a queue;
* `Works.step_housed` is about one move of the works and `Works.run_housed` about several;
* `registrations_are_whole` is the main statement.
-/

namespace DurableQueue

/-! ### The pools of a queue -/

namespace LiveQueue

variable {A : Signature} {ω υ : Type} {q q' : LiveQueue A ω} {shards : List ShardId}

/-- A queue has a pool on each of some shards and on no other. -/
def HasPools (shards : List ShardId) (q : LiveQueue A ω) : Prop :=
  ∀ shard, q.pools.contains shard = true ↔ shard ∈ shards

theorem hasPools_new (location : Location) (address : Addresses) (l : LiveSettings ω)
    (shards : List ShardId) : (new location address l shards : LiveQueue A ω).HasPools shards := by
  intro shard
  have hmem : shard ∈ (new location address l shards : LiveQueue A ω).pools.keys ↔ _ :=
    Dict.mem_keys_ofList
  rw [Dict.mem_keys_iff, ← Option.isSome_iff_exists] at hmem
  exact hmem.trans (by simp)

/-- Steps of pools let none come or go. -/
theorem PoolSteps.contains {pools pools' : Dict (Pool A)} (h : PoolSteps pools pools')
    (shard : ShardId) : pools'.contains shard = pools.contains shard := by
  have hshard := h shard
  unfold Dict.contains
  generalize pools.get? shard = before at hshard ⊢
  generalize pools'.get? shard = after at hshard ⊢
  cases hshard <;> rfl

namespace HasPools

theorem steps (h : q.HasPools shards) (hsteps : PoolSteps q.pools q'.pools) : q'.HasPools shards :=
  fun shard => by rw [hsteps.contains, h shard]

theorem modifyPool (h : q.HasPools shards) (shard : ShardId) (f : Pool A → Pool A) :
    (q.modifyPool shard f).HasPools shards := by
  intro shard'
  rw [← h shard', Dict.contains, Dict.contains, LiveQueue.modifyPool, Dict.get?_modify]
  split
  · rw [Option.isSome_map]
  · rfl

theorem mapPools (h : q.HasPools shards) (f : Pool A → Pool A) :
    (q.mapPools f).HasPools shards := by
  intro shard
  rw [← h shard, Dict.contains, Dict.contains, LiveQueue.mapPools, Dict.get?_mapValues,
    Option.isSome_map]

theorem start (h : q.HasPools shards) : q.start.HasPools shards :=
  List.foldlRecOn q.pools.keys LiveQueue.startPool h fun q hq shard _ =>
    hq.steps (q.startPool_steps shard)

theorem shutdown (h : q.HasPools shards) : q.shutdown.HasPools shards :=
  List.foldlRecOn q.pools.keys LiveQueue.shutdownPool h fun q hq shard _ =>
    hq.steps (q.shutdownPool_steps shard)

theorem setGroup (h : q.HasPools shards) (judge : Judge ω υ) (new : GroupValue) (u : υ) :
    (q.setGroup judge new u).2.1.HasPools shards := h.steps (q.setGroup_steps judge new u)

end HasPools

end LiveQueue

/-! ### Registrations -/

namespace Service

variable {A : Signature} {ω : Type} {s : Service A ω} {location : Location} {address : Addresses}
  {offers : ShardId → Bool} {queue : QueueId}

/-- A queue is added with its settings and a pool on every shard, none of them started and none with
a worker. Everything else is as it was. -/
structure Added (s : Service A ω) (location : Location) (address : Addresses) (s' : Service A ω) :
    Prop where
  shards : s'.shards = s.shards
  cells : s'.cells = s.cells
  others : ∀ queue, queue ≠ location.queue → s'.queues.get? queue = s.queues.get? queue
  entry : ∃ q, s'.queues.get? location.queue = some q ∧ q.location = location ∧
    q.address = address ∧ q.settings = (s.cells.load address).settings ∧ q.mode = s.mode address ∧
    q.HasPools s.shards ∧
    ∀ shard p, q.pools.get? shard = some p → p.started = false ∧ p.workers = []

/-- What a registration comes to: it adds a new queue whose iterations can be built on every shard,
and changes nothing otherwise. A queue that is registered already is told apart from one whose
consumer offers no executor on some shard although its mode needs one. -/
structure Enrolled (s : Service A ω) (location : Location) (address : Addresses)
    (offers : ShardId → Bool) (answer : Except ServiceError Bool) (s' : Service A ω) : Prop where
  new_iff : answer = .ok true ↔ s.queues.contains location.queue = false ∧
    ∀ shard ∈ s.shards, Buildable (s.mode address) offers shard
  known_iff : answer = .ok false ↔ s.queues.contains location.queue = true
  refused_iff : (∃ e, answer = .error e) ↔ s.queues.contains location.queue = false ∧
    s.mode address = .useExternalExecutor ∧ ∃ shard ∈ s.shards, offers shard = false
  reason : ∀ e, answer = .error e → e = .executorRequired location.queue
  added : answer = .ok true → s.Added location address s'
  unchanged : answer ≠ .ok true → s' = s

theorem added_add (s : Service A ω) (location : Location) (address : Addresses) :
    s.Added location address (s.add location address) := by
  refine ⟨rfl, rfl, fun queue hne => ?_, .new location address (s.cells.load address) s.shards, ?_,
    rfl, rfl, rfl, rfl, LiveQueue.hasPools_new location address _ s.shards, fun shard p hp => ?_⟩
  · rw [get?_add, if_neg hne]
  · rw [get?_add, if_pos rfl]
  · rw [LiveQueue.eq_new_of_get hp]
    exact ⟨rfl, rfl⟩

theorem not_buildable_iff {mode : ProcessingMode} {shard : ShardId} :
    ¬ Buildable mode offers shard ↔ mode = .useExternalExecutor ∧ offers shard = false := by
  simp [Buildable]

theorem enrolled_enroll (s : Service A ω) (location : Location) (address : Addresses)
    (offers : ShardId → Bool) :
    s.Enrolled location address offers (s.enroll location address offers).1
      (s.enroll location address offers).2 := by
  rcases s.enroll_cases location address offers with
    ⟨hknown, h⟩ | ⟨hnew, hall, h⟩ | ⟨hnew, hsome, h⟩
  · rw [h]
    constructor <;> simp [hknown]
  · rw [h]
    have hnone : ¬ ∃ shard ∈ s.shards, ¬ Buildable (s.mode address) offers shard := by
      simpa using hall
    simp only [not_buildable_iff] at hnone
    refine ⟨iff_of_true rfl ⟨hnew, hall⟩, by simp [hnew], ?_, nofun,
      fun _ => s.added_add location address, fun hne => absurd rfl hne⟩
    refine iff_of_false nofun ?_
    rintro ⟨-, hmode, shard, hmem, hoffers⟩
    exact hnone ⟨shard, hmem, hmode, hoffers⟩
  · rw [h]
    obtain ⟨shard, hmem, hnot⟩ := hsome
    obtain ⟨hmode, hoffers⟩ := not_buildable_iff.1 hnot
    refine ⟨iff_of_false nofun fun hall => hnot (hall.2 shard hmem), by simp [hnew],
      iff_of_true ⟨_, rfl⟩ ⟨hnew, hmode, shard, hmem, hoffers⟩, ?_, nofun, fun _ => rfl⟩
    rintro e ⟨⟩
    rfl

/-- Whatever is asked of a queue, the answer is that it is not registered. -/
structure Unknown (s : Service A ω) (queue : QueueId) : Prop where
  start : s.start queue = .error (.queueNotRegistered queue)
  pause : s.pause queue = .error (.queueNotRegistered queue)
  unpause : s.unpause queue = .error (.queueNotRegistered queue)
  shutdown : s.shutdown queue = .error (.queueNotRegistered queue)
  wakeup : ∀ shard, s.wakeup queue shard = .error (.queueNotRegistered queue)
  isPaused : s.isPaused queue = .error (.queueNotRegistered queue)
  isShutdown : s.isShutdown queue = .error (.queueNotRegistered queue)
  isTerminated : s.isTerminated queue = .error (.queueNotRegistered queue)
  awaitTermination : ∀ timeout,
    s.awaitTermination queue timeout = .error (.queueNotRegistered queue)

theorem unknown_of_none (h : s.queues.get? queue = none) : s.Unknown queue := by
  -- every operation begins with the same look-up
  have hqueue : s.queue queue = .error (.queueNotRegistered queue) := by rw [Service.queue, h]
  have hmodify : ∀ f, s.modify? queue f = .error (.queueNotRegistered queue) := fun f => by
    rw [modify?, hqueue]
  refine ⟨hmodify _, hmodify _, hmodify _, hmodify _, fun shard => ?_, ?_, ?_, ?_,
    fun timeout => ?_⟩
  · rw [Service.wakeup, hqueue]
  · rw [Service.isPaused, hqueue]; rfl
  · rw [Service.isShutdown, hqueue]; rfl
  · rw [Service.isTerminated, hqueue]; rfl
  · rw [Service.awaitTermination, hqueue]

theorem wakeup_of_no_pool {q : LiveQueue A ω} {shard : ShardId} (hq : s.queues.get? queue = some q)
    (hshard : q.pools.contains shard = false) :
    s.wakeup queue shard = .error (.shardNotFound shard) := by
  rw [Service.wakeup, Service.queue, hq]
  simp [hshard]

/-! ### Queues and shards -/

/-- Every queue has its pools on the shards of the service. -/
structure Housed (shards : List ShardId) (s : Service A ω) : Prop where
  shards_eq : s.shards = shards
  queues : s.Every fun _ q => q.HasPools shards

theorem mem_shards_new {shards : List ShardId} {shard : ShardId} :
    shard ∈ (new shards : Service A ω).shards ↔ shard ∈ shards := by
  rw [new, Dict.mem_keys_ofList]
  simp

/-- Which pools a queue has does not depend on cells. -/
theorem blind_hasPools {shards : List ShardId} :
    Blind fun _ (q : LiveQueue A ω) => q.HasPools shards := fun _ _ _ h => h

namespace Housed

variable {shards : List ShardId} {s' : Service A ω} {f : LiveQueue A ω → LiveQueue A ω}

theorem withCells (h : s.Housed shards) (c : Cells ω) : { s with cells := c }.Housed shards :=
  ⟨h.shards_eq, Every.withCells h.queues fun _ _ _ hq => hq⟩

theorem add (h : s.Housed shards) (location : Location) (address : Addresses) :
    (s.add location address).Housed shards := by
  refine ⟨h.shards_eq, Every.add h.queues ?_⟩
  rw [← h.shards_eq]
  exact LiveQueue.hasPools_new location address _ s.shards

theorem enroll (h : s.Housed shards) (location : Location) (address : Addresses)
    (offers : ShardId → Bool) : (s.enroll location address offers).2.Housed shards := by
  rcases s.enroll_eq location address offers with heq | ⟨-, heq⟩
  · rw [heq]
    exact h
  · rw [heq]
    exact h.add location address

theorem register (h : s.Housed shards) {config : QueueConfig} {hasExecutor isNew : Bool}
    (hs : s.register config hasExecutor = .ok (isNew, s')) : s'.Housed shards := by
  rcases eq_of_register hs with rfl | ⟨-, rfl⟩
  · exact h
  · exact (h.withCells _).add _ _

theorem modify (h : s.Housed shards) (hstays : ∀ q : LiveQueue A ω, q.Stays (f q))
    (hf : ∀ q : LiveQueue A ω, q.HasPools shards → (f q).HasPools shards) :
    (s.modify queue f).Housed shards := by
  refine ⟨?_, blind_hasPools.modify h.queues hstays hf⟩
  rw [Service.modify]
  split <;> exact h.shards_eq

theorem modifyAll (h : s.Housed shards) (hstays : ∀ q : LiveQueue A ω, q.Stays (f q))
    (hf : ∀ q : LiveQueue A ω, q.HasPools shards → (f q).HasPools shards) :
    (s.modifyAll f).Housed shards :=
  modifyAll_keeps (fun _ _ hs => hs.modify hstays hf) h

theorem modify? (h : s.Housed shards) (hs : s.modify? queue f = .ok s')
    (hstays : ∀ q : LiveQueue A ω, q.Stays (f q))
    (hf : ∀ q : LiveQueue A ω, q.HasPools shards → (f q).HasPools shards) : s'.Housed shards := by
  rw [eq_of_modify? hs]
  exact h.modify hstays hf

theorem modifyPool (h : s.Housed shards) (shard : ShardId) (f : Pool A → Pool A) :
    (s.modifyPool queue shard f).Housed shards :=
  ⟨h.shards_eq, Every.modifyPool h.queues fun q hq => (h.queues queue q hq).modifyPool shard f⟩

theorem wakeup (h : s.Housed shards) {shard : ShardId} (hs : s.wakeup queue shard = .ok s') :
    s'.Housed shards := by
  rw [eq_of_wakeup hs]
  exact h.modifyPool shard Pool.wakeup

theorem setGroup {υ : Type} (h : s.Housed shards) (judge : Judge ω υ) (a : Addresses)
    (new : GroupValue) (u : υ) : (s.setGroup judge a new u).2.1.Housed shards :=
  ⟨h.shards_eq, Every.setGroup h.queues fun queue q hq _ =>
    (h.queues queue q hq).setGroup judge new u⟩

theorem update {υ : Type} (h : s.Housed shards) (judge : Judge ω υ) (configs : List GivenConfig)
    (u : υ) : (s.update judge configs u).2.1.Housed shards :=
  update_keeps (fun _ a new u hs _ => hs.setGroup judge a new u) h configs u

end Housed

end Service

/-! ### The works -/

namespace Works

variable {π ω υ : Type} {plan : Plan π ω υ} {w : State π ω υ} {shards : List ShardId}

/-- A change of workers and observers keeps the pools on the shards. -/
theorem housed_turn (h : w.service.Housed shards) (queue : QueueId) (shard : ShardId) (i : Nat)
    (luck : Luck) : (w.turn plan queue shard i luck).service.Housed shards := by
  unfold State.turn
  split
  · exact h
  · split
    · exact h
    · split
      · exact h.modifyPool _ _
      next d next _ =>
        have hserved : (w.serve plan (.worker queue shard i) luck d).2.service.Housed shards := by
          rw [service_serve]
          exact h
        exact hserved.modifyPool _ _
      · exact h
      · exact h.modifyPool _ _
      · exact h.modifyPool _ _

theorem housed_advance (h : w.service.Housed shards) (i : Nat) (luck : Luck) :
    (w.advance plan i luck).service.Housed shards := by
  unfold State.advance
  split
  · exact h
  · split
    · exact h
    · exact (service_serve luck).symm ▸ h
    · exact h
    · exact h
    · exact h

theorem housed_setGroup (h : w.service.Housed shards) (queue : QueueId) (new : GroupValue) :
    (w.setGroup plan queue new).service.Housed shards := by
  unfold State.setGroup
  split
  · exact h
  next e he => exact h.setGroup plan.judge e.address new w.observers

theorem housed_enroll (h : w.service.Housed shards) (location : Location) (address : Addresses)
    (offers : ShardId → Bool) : (w.enroll location address offers).service.Housed shards := by
  unfold State.enroll
  split
  · exact h.enroll location address offers
  · exact h

theorem housed_operate (h : w.service.Housed shards)
    {result : Except ServiceError (Service (Deeds π) ω)}
    (hresult : ∀ service, result = .ok service → service.Housed shards) :
    (w.operate result).service.Housed shards := by
  cases result with
  | error e => exact h
  | ok service => exact hresult service rfl

/-- Every move keeps the pools of every queue on the shards. -/
theorem step_housed (h : w.service.Housed shards) (move : Move π ω) :
    (w.step plan move).service.Housed shards := by
  cases move with
  | register config hasExecutor =>
    refine housed_operate h fun service hservice => ?_
    cases hregister : w.service.register config hasExecutor with
    | error e =>
      rw [hregister] at hservice
      cases hservice
    | ok result =>
      rw [hregister] at hservice
      cases hservice
      exact h.register hregister
  | create settings => exact h.withCells _
  | enroll location address offers => exact housed_enroll h location address offers
  | start queue =>
    exact housed_operate h fun _ hs => h.modify? hs LiveQueue.stays_start fun _ hq => hq.start
  | pause queue =>
    exact housed_operate h fun _ hs => h.modify? hs LiveQueue.stays_pause fun _ hq => hq.mapPools _
  | unpause queue =>
    exact housed_operate h fun _ hs =>
      h.modify? hs LiveQueue.stays_unpause fun _ hq => hq.mapPools _
  | shutdown queue =>
    exact housed_operate h fun _ hs =>
      h.modify? hs LiveQueue.stays_shutdown fun _ hq => hq.shutdown
  | wakeup queue shard => exact housed_operate h fun _ hs => h.wakeup hs
  | startAll => exact h.modifyAll LiveQueue.stays_start fun _ hq => hq.start
  | pauseAll => exact h.modifyAll LiveQueue.stays_pause fun _ hq => hq.mapPools _
  | unpauseAll => exact h.modifyAll LiveQueue.stays_unpause fun _ hq => hq.mapPools _
  | shutdownAll => exact h.modifyAll LiveQueue.stays_shutdown fun _ hq => hq.shutdown
  | update configs => exact h.update plan.judge configs w.observers
  | setGroup queue new => exact housed_setGroup h queue new
  | observe queue group o =>
    exact h.modify (LiveQueue.stays_observe · group o) fun q hq =>
      hq.steps (q.observe_steps group o)
  | turn queue shard i luck => exact housed_turn h queue shard i luck
  | drop queue shard i => exact h.modifyPool _ _
  | beginJob i =>
    show (w.beginJob plan i).service.Housed shards
    unfold State.beginJob
    split <;> exact h
  | advance i luck => exact housed_advance h i luck
  | call user place c luck => exact (service_call ..).symm ▸ h
  | pass nanos => exact h
  | beginProducer location route order => exact h
  | clear store => exact h

theorem run_housed (h : w.service.Housed shards) (moves : List (Move π ω)) :
    (w.run plan moves).service.Housed shards := by
  induction moves generalizing w with
  | nil => exact h
  | cons move moves ih => exact ih (step_housed h move)

/-- A move is an operation on one queue. -/
def Move.IsOn (queue : QueueId) : Move π ω → Prop
  | .start queue' => queue' = queue
  | .pause queue' => queue' = queue
  | .unpause queue' => queue' = queue
  | .shutdown queue' => queue' = queue
  | .wakeup queue' _ => queue' = queue
  | _ => False

/-- An operation on a queue that is not registered changes nothing. -/
theorem step_of_unknown {queue : QueueId} (h : w.service.Unknown queue) {move : Move π ω}
    (hmove : move.IsOn queue) : w.step plan move = w := by
  cases move with
  | start queue' =>
    obtain rfl : queue' = queue := hmove
    rw [State.step, h.start, State.operate]
  | pause queue' =>
    obtain rfl : queue' = queue := hmove
    rw [State.step, h.pause, State.operate]
  | unpause queue' =>
    obtain rfl : queue' = queue := hmove
    rw [State.step, h.unpause, State.operate]
  | shutdown queue' =>
    obtain rfl : queue' = queue := hmove
    rw [State.step, h.shutdown, State.operate]
  | wakeup queue' shard =>
    obtain rfl : queue' = queue := hmove
    rw [State.step, h.wakeup shard, State.operate]
  | _ => exact hmove.elim

/-- **Registrations are whole, and the first one stays.** In any service that the works can come to,
every queue has exactly one pool for each shard.

A registration adds a queue exactly when none of its name is registered and its iterations can be
built on every shard, whatever its consumer answers on each of them. What is added has a pool on
every shard, none of them started. Any other registration changes nothing, and tells whether the
queue is registered or an executor is missing.

Whatever is asked of a queue that is not registered, the answer says so, and nothing changes; nor
does anything when a queue is to be woken up on a shard that the service does not have. -/
theorem registrations_are_whole (plan : Plan π ω υ) (shards : List ShardId) (observers : υ)
    (stores : Nat → Store) (moves : List (Move π ω)) :
    let w : State π ω υ := (State.initial shards observers stores).run plan moves
    let s := w.service
    (∀ shard, shard ∈ s.shards ↔ shard ∈ shards) ∧
    (∀ queue q, s.queues.get? queue = some q → q.HasPools s.shards) ∧
    (∀ location address offers, s.Enrolled location address offers
      (s.enroll location address offers).1 (s.enroll location address offers).2) ∧
    (∀ queue, s.queues.get? queue = none →
      s.Unknown queue ∧ ∀ move, move.IsOn queue → w.step plan move = w) ∧
    (∀ queue q shard, s.queues.get? queue = some q → shard ∉ shards →
      s.wakeup queue shard = .error (.shardNotFound shard) ∧
      w.step plan (.wakeup queue shard) = w) := by
  intro w s
  have hinitial : (State.initial shards observers stores : State π ω υ).service.Housed
      (Service.new shards : Service (Deeds π) ω).shards :=
    ⟨rfl, Service.every_new shards⟩
  have hhoused : s.Housed (Service.new shards : Service (Deeds π) ω).shards :=
    run_housed hinitial moves
  have hshards : ∀ shard, shard ∈ s.shards ↔ shard ∈ shards := fun shard => by
    rw [hhoused.shards_eq]
    exact Service.mem_shards_new
  have hpools : ∀ queue q, s.queues.get? queue = some q → q.HasPools s.shards := by
    rw [hhoused.shards_eq]
    exact hhoused.queues
  refine ⟨hshards, hpools, s.enrolled_enroll, fun queue hnone => ?_,
    fun queue q shard hq hshard => ?_⟩
  · have hunknown := Service.unknown_of_none hnone
    exact ⟨hunknown, fun move => step_of_unknown hunknown⟩
  · have hmissing : q.pools.contains shard = false := by
      rw [Bool.eq_false_iff, ne_eq, hpools queue q hq shard, hshards shard]
      exact hshard
    have hrefused := Service.wakeup_of_no_pool hq hmissing
    refine ⟨hrefused, ?_⟩
    rw [State.step, show w.service.wakeup queue shard = _ from hrefused, State.operate]

/-- Moves that start one queue and make settings for another one whose tasks are handed off. -/
def serving : List (Move String Unit) :=
  [.register ⟨.of "orders" "tasks", {}⟩ false, .start "orders",
    .create { processing := { mode := .useExternalExecutor } }]

/-- A service on two shards with one queue, which has been started. -/
def served : State String Unit Unit :=
  (State.initial ["west", "east"] () fun _ => .empty {}).run stubborn serving

/-- The place of a queue that is not registered. -/
def mail : Location := .of "mail" "tasks"

/-- A consumer that offers an executor on the first shard only is refused, and its queue is not
registered afterwards. With executors on both shards it is accepted, and then its queue has two
pools. The other queue is registered already, and has no pool to be woken up on a third shard. -/
theorem half_offered_queue_leaves_nothing :
    served.service.enroll mail (fun _ => 1) (· = "east")
      = (.error (.executorRequired "mail"), served.service) ∧
    served.service.Unknown "mail" ∧
    (served.service.enroll mail (fun _ => 1) fun _ => true).1 = .ok true ∧
    served.service.Added mail (fun _ => 1)
      (served.service.enroll mail (fun _ => 1) fun _ => true).2 ∧
    served.service.enroll (.of "orders" "other") (fun _ => 1) (fun _ => false)
      = (.ok false, served.service) ∧
    served.service.wakeup "orders" "north" = .error (.shardNotFound "north") := by
  obtain ⟨-, -, henroll, hunknown, hwakeup⟩ := registrations_are_whole stubborn ["west", "east"] ()
    (fun _ => .empty {}) serving
  have hhalf := henroll mail (fun _ => 1) (· = "east")
  have hboth := henroll mail (fun _ => 1) fun _ => true
  have hagain := henroll (.of "orders" "other") (fun _ => 1) fun _ => false
  have hnew : (served.service.enroll mail (fun _ => 1) fun _ => true).1 = .ok true :=
    hboth.new_iff.2 ⟨rfl, fun _ _ _ => rfl⟩
  have hknown : (served.service.enroll (.of "orders" "other") (fun _ => 1) fun _ => false).1
      = .ok false := hagain.known_iff.2 rfl
  obtain ⟨e, he⟩ := hhalf.refused_iff.2 ⟨rfl, rfl, "west", by decide, by decide⟩
  obtain rfl := hhalf.reason e he
  refine ⟨Prod.ext he (hhalf.unchanged fun hok => ?_), (hunknown "mail" rfl).1, hnew,
    hboth.added hnew, Prod.ext hknown (hagain.unchanged fun hok => ?_),
    (hwakeup "orders" _ "north" rfl (by decide)).1⟩
  · cases he.symm.trans hok
  · cases hknown.symm.trans hok

end Works

end DurableQueue
