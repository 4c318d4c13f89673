import DurableQueue.Proofs.Works.Custody
import DurableQueue.Service.Registry
import DurableQueue.Store.Transaction

/-!
# The works

A service with all its workers, jobs that were handed off, producers and users of the stores, run
side by side. One move is one operation of the service, one step of something in progress, or one
call of a store; which move is next is not decided here.

* `Plan` is what stays, `State` what changes. Both the transactions and the custody are kept by
  `Actor`;
* `State.call` is a call of a store, which may fail before or after it has taken effect, and
  `State.serve` the answer to a request;
* `Event` and `State.history` are what has happened to rows, latest first. They are noted for the
  sake of statements only: nothing reads them, and nothing but them reads custody;
* `State.step` is a move, and `State.run` several.
-/

namespace DurableQueue.Works

/-- Who makes requests: a worker, a job or a producer, or somebody who calls a store directly. -/
inductive Actor
  | worker (queue : QueueId) (shard : ShardId) (number : Nat)
  | errand (number : Nat)
  | user (number : Nat)
  deriving DecidableEq

/-- What has happened to the rows of a store. -/
inductive Event
  /-- A row was added. -/
  | enqueued (store : Nat) (row : Row)
  /-- A pick has returned the task of a row to a worker. -/
  | picked (store : Nat) (row : Row)
  /-- The consumer has finished a task that was picked from a row. -/
  | finished (store : Nat) (row : Row)
  /-- A row was to be removed by a call that no worker has made. -/
  | deleted (store : Nat) (table : String) (queue : QueueId) (id : Int)
  | cleared (store : Nat)

/-- What stays the same: the payloads of queues, the stores of shards, which may share one, and
how the observers of settings answer. -/
structure Plan (π ω υ : Type) where
  transformer : QueueId → Transformer π
  store : ShardId → Nat
  judge : Judge ω υ

/-- The state of the works. -/
structure State (π ω υ : Type) where
  now : Nat := 0
  service : Service (Deeds π) ω
  observers : υ
  stores : Nat → Store := fun _ => default
  /-- The tasks that were handed off and wait for the executor. -/
  jobs : List (Place × TaskRecord) := []
  /-- The jobs and the producers that were begun. -/
  errands : List (Activity (Deeds π)) := []
  transactions : Actor → Transaction := fun _ => ⟨true⟩
  custody : Actor → Custody := fun _ => {}
  history : List Event := []

/-- What is left to chance in a step: the time that the row clock shows, a fault of the store and
whether the call takes effect all the same, and how the consumer ends. -/
structure Luck where
  time : Instant
  fault : Option (StoreError × Bool) := none
  outcome : ConsumerOutcome := .result .fail

/-- A move of the works. -/
inductive Move (π ω : Type)
  | pass (nanos : Nat)
  | register (config : QueueConfig) (hasExecutor : Bool)
  /-- Settings are made, which any number of queues may be registered with. -/
  | create (settings : QueueSettings)
  /-- A queue is registered with settings that were made before. -/
  | enroll (location : Location) (address : Addresses) (offers : ShardId → Bool)
  | start (queue : QueueId)
  | pause (queue : QueueId)
  | unpause (queue : QueueId)
  | shutdown (queue : QueueId)
  | wakeup (queue : QueueId) (shard : ShardId)
  | startAll
  | pauseAll
  | unpauseAll
  | shutdownAll
  | update (configs : List GivenConfig)
  | setGroup (queue : QueueId) (new : GroupValue)
  | observe (queue : QueueId) (group : Group) (o : ω)
  /-- A step of a worker. -/
  | turn (queue : QueueId) (shard : ShardId) (number : Nat) (luck : Luck)
  /-- An aborted worker is dropped where it is. -/
  | drop (queue : QueueId) (shard : ShardId) (number : Nat)
  /-- The executor begins a job. -/
  | beginJob (number : Nat)
  | beginProducer (location : Location) (route : Route π) (order : Order π)
  /-- A step of a job or a producer. -/
  | advance (number : Nat) (luck : Luck)
  /-- A call of a store by nobody of these. -/
  | call (user : Nat) (place : Place) (call : StoreCall) (luck : Luck)
  | clear (store : Nat)

variable {π ω υ : Type}

/-- A row of a place. -/
def Place.row (place : Place) (record : TaskRecord) : Row :=
  ⟨place.location.table, place.location.queue, record⟩

namespace Plan

/-- The events of an exchange of somebody with a custody. -/
def events (plan : Plan π ω υ) (c : Custody) : (d : Deed π) → d.Answer → List Event
  | .task place (.store (.pick _)), .ok (some record) =>
    [.picked (plan.store place.shard) (place.row record)]
  | .task place (.consume _), .result .finish =>
    ((c.held.filter fun (other, _) => other = place).map fun (_, record) =>
      .finished (plan.store place.shard) (place.row record)).toList
  | _, _ => []

/-- The events of a call that has taken effect and left a store. -/
def effects (plan : Plan π ω υ) (place : Place) : (c : StoreCall) → c.Answer → Store → List Event
  | .enqueue _, .ok id, s =>
    ((s.row? place.location id).map (.enqueued (plan.store place.shard))).toList
  | _, _, _ => []

/-- The events of a call that nobody in the works has made. -/
def direct (plan : Plan π ω υ) (place : Place) : StoreCall → List Event
  | .delete id => [.deleted (plan.store place.shard) place.location.table place.location.queue id]
  | _ => []

end Plan

namespace State

/-! ### Requests -/

/-- The live settings of a queue. -/
def settings (w : State π ω υ) (queue : QueueId) : QueueSettings :=
  ((w.service.queues.get? queue).map (·.settings)).getD {}

/-- A call has taken effect. -/
def reach (w : State π ω υ) (plan : Plan π ω υ) (actor : Actor) (time : Instant) (place : Place)
    (c : StoreCall) : c.Answer × State π ω υ :=
  let (answer, t, s) :=
    c.answerIn time place.location (w.transactions actor) (w.stores (plan.store place.shard))
  (answer, { w with
    stores := fun n => if n = plan.store place.shard then s else w.stores n
    transactions := fun a => if a = actor then t else w.transactions a
    history := plan.effects place c answer s ++ w.history })

/-- Call a store. -/
def call (w : State π ω υ) (plan : Plan π ω υ) (actor : Actor) (luck : Luck) (place : Place)
    (c : StoreCall) : c.Answer × State π ω υ :=
  match luck.fault with
  | none => w.reach plan actor luck.time place c
  -- the answer was lost on its way back
  | some (e, true) => (c.failure e, (w.reach plan actor luck.time place c).2)
  | some (e, false) => (c.failure e, w)

/-- Do what is asked for. -/
def perform (w : State π ω υ) (plan : Plan π ω υ) (actor : Actor) (luck : Luck) :
    (d : Deed π) → d.Answer × State π ω υ
  | .clock => (w.now, w)
  | .pollSettings queue => ((w.settings queue).poll, w)
  | .tell _ _ => ((), w)
  | .task _ .clock => (w.now, w)
  | .task place .failureSettings => ((w.settings place.location.queue).failure, w)
  | .task place .reenqueueSettings => ((w.settings place.location.queue).reenqueue, w)
  | .task place (.store c) => w.call plan actor luck place c
  | .task _ (.consume _) => (luck.outcome, w)
  | .task _ (.notify _ _) => ((), w)
  | .task place (.handOff record) => ((), { w with jobs := w.jobs ++ [(place, record)] })
  | .offer place c => w.call plan actor luck place c

/-- Note an exchange. -/
def note (w : State π ω υ) (plan : Plan π ω υ) (actor : Actor) (d : Deed π) (a : d.Answer) :
    State π ω υ :=
  { w with
    custody := fun b => if b = actor then (w.custody actor).note d a else w.custody b
    history := plan.events (w.custody actor) d a ++ w.history }

/-- Answer a request. -/
def serve (w : State π ω υ) (plan : Plan π ω υ) (actor : Actor) (luck : Luck) (d : Deed π) :
    d.Answer × State π ω υ :=
  let (a, w) := w.perform plan actor luck d
  (a, w.note plan actor d a)

/-! ### Steps -/

/-- Change a worker. -/
def modifyWorker (w : State π ω υ) (queue : QueueId) (shard : ShardId) (i : Nat)
    (f : Worker (Deeds π) → Worker (Deeds π)) : State π ω υ :=
  { w with service := w.service.modifyPool queue shard fun p => p.modify i f }

/-- The worker of a number, and the queue that it serves. -/
def worker? (w : State π ω υ) (queue : QueueId) (shard : ShardId) (i : Nat) :
    Option (LiveQueue (Deeds π) ω × Worker (Deeds π)) :=
  match w.service.queues.get? queue with
  | none => none
  | some q => ((q.pools.get? shard).bind fun p => p.workers[i]?).map fun x => (q, x)

/-- One step of a worker. -/
def turn (w : State π ω υ) (plan : Plan π ω υ) (queue : QueueId) (shard : ShardId) (i : Nat)
    (luck : Luck) : State π ω υ :=
  match w.worker? queue shard i with
  | none => w
  | some (q, x) =>
    if x.exited then w
    else
      match x.loop.turn (fun _ => roundAt ⟨shard, q.location⟩ (plan.transformer queue) q.mode) w.now
          x.gate with
      | .moves loop gate => w.modifyWorker queue shard i fun x => { x with loop, gate }
      | .asks d next =>
        let (a, w) := w.serve plan (.worker queue shard i) luck d
        w.modifyWorker queue shard i fun x => { x with loop := next a }
      | .blocked => w
      | .over => w.modifyWorker queue shard i fun x => { x with exited := true }
      | .fails gate => w.modifyWorker queue shard i fun x => { x with gate, exited := true }

/-- Drop a worker, if it was aborted. -/
def drop (w : State π ω υ) (queue : QueueId) (shard : ShardId) (i : Nat) : State π ω υ :=
  w.modifyWorker queue shard i fun x => { x with exited := x.exited || x.aborted }

/-- Begin a job that was handed off. -/
def beginJob (w : State π ω υ) (plan : Plan π ω υ) (i : Nat) : State π ω υ :=
  match w.jobs[i]? with
  | none => w
  | some (place, record) =>
    { w with
      jobs := w.jobs.eraseIdx i
      errands := w.errands ++ [.ready (jobAt place (plan.transformer place.location.queue) record)]
      custody := fun b =>
        if b = .errand w.errands.length then ⟨some (place, record), false⟩ else w.custody b }

/-- Begin a producer. -/
def beginProducer (w : State π ω υ) (plan : Plan π ω υ) (location : Location) (route : Route π)
    (order : Order π) : State π ω υ :=
  { w with
    errands := w.errands ++
      [.ready (producerAt location (plan.transformer location.queue) route order)] }

/-- One step of a job or a producer. -/
def advance (w : State π ω υ) (plan : Plan π ω υ) (i : Nat) (luck : Luck) : State π ω υ :=
  match w.errands[i]? with
  | none => w
  | some activity =>
    match activity.turn w.now (.new false) with
    | .moves next _ => { w with errands := w.errands.set i next }
    | .asks d next =>
      let (a, w) := w.serve plan (.errand i) luck d
      { w with errands := w.errands.set i (next a) }
    | .blocked => w
    | .over => w
    | .fails _ => w

/-- Call a store directly. -/
def callDirectly (w : State π ω υ) (plan : Plan π ω υ) (user : Nat) (place : Place) (c : StoreCall)
    (luck : Luck) : State π ω υ :=
  let (_, w) := w.call plan (.user user) luck place c
  { w with history := plan.direct place c ++ w.history }

/-- Remove all rows of a store. -/
def clear (w : State π ω υ) (store : Nat) : State π ω υ :=
  { w with
    stores := fun n => if n = store then (w.stores store).clear else w.stores n
    history := .cleared store :: w.history }

/-- The service after an operation, unless that was refused. -/
def operate (w : State π ω υ) (result : Except ServiceError (Service (Deeds π) ω)) : State π ω υ :=
  match result with
  | .ok service => { w with service }
  | .error _ => w

/-- Change one group of the settings of a queue. -/
def setGroup (w : State π ω υ) (plan : Plan π ω υ) (queue : QueueId) (new : GroupValue) :
    State π ω υ :=
  match w.service.entries.get? queue with
  | none => w
  | some e =>
    let (_, service, observers) := w.service.setGroup plan.judge e.address new w.observers
    { w with service, observers }

/-- Make settings. -/
def create (w : State π ω υ) (settings : QueueSettings) : State π ω υ :=
  { w with service := { w.service with cells := (w.service.cells.create settings).2 } }

/-- Register a queue with settings that were made before. -/
def enroll (w : State π ω υ) (location : Location) (address : Addresses)
    (offers : ShardId → Bool) : State π ω υ :=
  if w.service.cells.Holds address then
    { w with service := (w.service.enroll location address offers).2 }
  else w

/-- Apply configurations. -/
def update (w : State π ω υ) (plan : Plan π ω υ) (configs : List GivenConfig) : State π ω υ :=
  let (_, service, observers) := w.service.update plan.judge configs w.observers
  { w with service, observers }

/-- The state after a move. -/
def step (plan : Plan π ω υ) (w : State π ω υ) : Move π ω → State π ω υ
  | .pass nanos => { w with now := w.now + nanos }
  | .register config hasExecutor => w.operate ((w.service.register config hasExecutor).map (·.2))
  | .create settings => w.create settings
  | .enroll location address offers => w.enroll location address offers
  | .start queue => w.operate (w.service.start queue)
  | .pause queue => w.operate (w.service.pause queue)
  | .unpause queue => w.operate (w.service.unpause queue)
  | .shutdown queue => w.operate (w.service.shutdown queue)
  | .wakeup queue shard => w.operate (w.service.wakeup queue shard)
  | .startAll => { w with service := w.service.startAll }
  | .pauseAll => { w with service := w.service.pauseAll }
  | .unpauseAll => { w with service := w.service.unpauseAll }
  | .shutdownAll => { w with service := w.service.shutdownAll }
  | .update configs => w.update plan configs
  | .setGroup queue new => w.setGroup plan queue new
  | .observe queue group o =>
    { w with service := w.service.modify queue fun q => q.observe group o }
  | .turn queue shard i luck => w.turn plan queue shard i luck
  | .drop queue shard i => w.drop queue shard i
  | .beginJob i => w.beginJob plan i
  | .beginProducer location route order => w.beginProducer plan location route order
  | .advance i luck => w.advance plan i luck
  | .call user place c luck => w.callDirectly plan user place c luck
  | .clear store => w.clear store

/-- The state after several moves. -/
def run (plan : Plan π ω υ) (w : State π ω υ) (moves : List (Move π ω)) : State π ω υ :=
  moves.foldl (step plan) w

/-- The works before anything has happened: a service without queues, and stores. -/
def initial (shards : List ShardId) (observers : υ) (stores : Nat → Store) : State π ω υ where
  service := .new shards
  observers
  stores

end State

end DurableQueue.Works
