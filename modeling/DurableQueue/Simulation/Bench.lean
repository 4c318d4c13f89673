import DurableQueue.Service.Awaiting
import DurableQueue.Simulation.Scheduler

/-!
# What is done to a simulated world

* `World.serve` puts a queue with a scripted consumer into service;
* `World.enqueueRow` and `World.rowsAt` reach into a store past its faults and its log;
* `World.iterate`, `processAlone`, `applyAlone`, `pickAlone` and `produceAlone` run a program with
  nothing else in progress;
* `World.startWait`, `startLoop`, `startRound` and `startWatch` start one in the background.
-/

namespace DurableQueue.Simulation

namespace World

/-! ### Queues -/

/-- Put a queue with a consumer into service; says whether it is new. -/
def serve (w : World) (config : QueueConfig) (consumer : Consumer) :
    Except ServiceError (Bool × World) :=
  match w.service.register config (consumer.executor ≠ .none) with
  | .error e => .error e
  | .ok (false, _) => .ok (false, w)
  | .ok (true, service) =>
    .ok (true, { w.withService service with
      consumers := w.consumers.insert config.location.queue consumer })

/-- Put several queues with consumers alike into service; says of each how that went. -/
def serveAll (w : World) (consumer : QueueConfig → Consumer) :
    List QueueConfig → List (QueueConfig × Except ServiceError Bool) × World
  | [] => ([], w)
  | c :: cs =>
    let (r, w) := match w.serve c (consumer c) with
      | .error e => (.error e, w)
      | .ok (isNew, w) => (.ok isNew, w)
    let (rs, w) := serveAll w consumer cs
    ((c, r) :: rs, w)

/-- A consumer that finishes every task, and starts tasks of its own if its queue hands them off. -/
def finisher (config : QueueConfig) : Consumer :=
  { executor := if config.settings.processing.mode = .useExternalExecutor then .starting else .none }

/-- A world with one queue in service on one shard. -/
def single (shard : ShardId) (store : FaultyStore) (config : QueueConfig) (consumer : Consumer) :
    Except ServiceError World :=
  ((new [(shard, store)]).serve config consumer).map (·.2)

/-- Change one group of the live settings of a queue; gives the summary of the change. -/
def setGroup (w : World) (queue : QueueId) (v : GroupValue) : String × World :=
  match w.service.entries.get? queue with
  | none => ("", w)
  | some e =>
    let (summary, service, ()) := w.service.setGroup Refusal.judge e.address v ()
    (summary, w.withService service)

/-- Change a queue. -/
def changeQueue (w : World) (queue : QueueId)
    (f : LiveQueue Acts Refusal → LiveQueue Acts Refusal) : World :=
  w.withService (w.service.modify queue f)

/-- Let somebody refuse all changes of a group of the live settings of a queue. -/
def refuse (w : World) (queue : QueueId) (group : Group) (reason : String) : World :=
  w.changeQueue queue fun q => q.observe group ⟨group.name, reason⟩

/-- Change the service, unless it refuses. -/
def changeService (w : World)
    (f : Service Acts Refusal → Except ServiceError (Service Acts Refusal)) :
    Except ServiceError Unit × World :=
  match f w.service with
  | .error e => (.error e, w)
  | .ok service => (.ok (), w.withService service)

/-- Apply configurations to the service; gives the changes. -/
def update (w : World) (configs : List QueueConfig) :
    Except ServiceError Service.Changes × World :=
  let (r, service, ()) := w.service.update Refusal.judge (configs.map QueueConfig.given) ()
  (r, w.withService service)

/-- Change the pool of a queue on a shard. -/
def changePool (w : World) (queue : QueueId) (shard : ShardId) (f : Pool Acts → Pool Acts) :
    World :=
  w.withService (w.service.modifyPool queue shard f)

/-- Start the pool of a queue on a shard. -/
def startPool (w : World) (queue : QueueId) (shard : ShardId) : World :=
  w.changeQueue queue fun q => q.startPool shard

/-- Shut the pool of a queue on a shard down. -/
def shutdownPool (w : World) (queue : QueueId) (shard : ShardId) : World :=
  w.changeQueue queue fun q => q.shutdownPool shard

/-- Let go of the pool of a queue on a shard: its workers are cancelled, and nothing changes its
size any more. -/
def dropPool (w : World) (queue : QueueId) (shard : ShardId) : World :=
  w.changePool queue shard fun p => { p.cancelAll with isShutdown := true }

/-! ### Rows -/

/-- Add a row to a store. -/
def enqueueRow (w : World) (place : Place) (task : NewTask) : Except StoreError Int × World :=
  let (now, w) := w.readRowClock
  match w.shards.get? place.shard with
  | none => (.error (.database "no such shard"), w)
  | some s =>
    let (r, store) := s.store.enqueue now place.location task
    (r, { w with shards := w.shards.insert place.shard { s with store } })

/-- Add a row for a queue in service to the store of a shard. -/
def enqueueAt (w : World) (queue : QueueId) (shard : ShardId) (task : NewTask) :
    Except ServiceError (Except StoreError Int) × World :=
  match w.service.queue queue with
  | .error e => (.error e, w)
  | .ok q =>
    if w.shards.contains shard then
      let (r, w) := w.enqueueRow ⟨shard, q.location⟩ task
      (.ok r, w)
    else (.error (.shardNotFound shard), w)

/-- Add a row for each payload to a store. -/
def enqueuePayloads (w : World) (place : Place) : List (Option String) → World
  | [] => w
  | p :: ps => (w.enqueueRow place { payload := p }).2.enqueuePayloads place ps

/-- Add empty rows to a store. -/
def enqueueRows (w : World) (place : Place) : Nat → World
  | 0 => w
  | n + 1 => (w.enqueueRow place {}).2.enqueueRows place n

/-- The tasks of a queue in a store. -/
def rowsAt (w : World) (place : Place) : List TaskRecord :=
  match w.shards.get? place.shard with
  | none => []
  | some s => s.store.tasksAt place.location

/-- The number of rows of each queue in service on each shard. -/
def rowCounts (w : World) : List (ShardId × QueueId × Nat) :=
  w.service.queues.values.flatMap fun q =>
    w.service.shards.map fun shard =>
      (shard, q.location.queue, (w.rowsAt ⟨shard, q.location⟩).length)

/-! ### Programs with nothing else in progress -/

/-- Run an iteration over a queue. -/
def iterate (w : World) (place : Place) (mode : ProcessingMode) : RunOutcome × World :=
  w.runInline (iterationAt place (w.consumer place.queue).transformer mode)

/-- Run the tasks that were handed off; gives their number. -/
def runJobsInline (w : World) : Nat × World :=
  (w.jobs.length, w.jobs.foldl (fun w job =>
    (w.runInline (jobAt job.place (w.consumer job.place.queue).transformer job.record)).2)
    { w with jobs := [] })

/-- Run a program in a transaction that is given up at the end. -/
def abandoned {α : Type} (place : Place) (p : Conduct α) : Conduct (Except StoreError α) := do
  match (← act (.store place .begin) : Except StoreError Unit) with
  | .error e => return .error e
  | .ok () =>
    let a ← p
    act (.store place .release)
    return .ok a

/-- Process a task, either detached or in a transaction that is given up at the end. -/
def processAlone (w : World) (place : Place) (detached : Bool) (record : TaskRecord) : World :=
  let transformer := (w.consumer place.queue).transformer
  if detached then (w.runInline (jobAt place transformer record)).2
  else
    (w.runInline (abandoned place
      ((Iteration.process transformer place.shard record).interpret (onTask place)))).2

/-- Apply a result to a task in a transaction that is given up at the end. -/
def applyAlone (w : World) (place : Place) (record : TaskRecord) (result : TaskResult) :
    Except ProcessingError Unit × World :=
  match w.runInline (abandoned place
      ((Iteration.applyResult record result).interpret (onTask place))) with
  | (.error e, w) => (.error (.store e), w)
  | (.ok r, w) => (r, w)

/-- Pick a task. -/
def pickAlone (w : World) (place : Place) : Except StoreError (Option TaskRecord) × World :=
  w.runInline (Iteration.pickTask.interpret (onTask place))

/-- Call a store. -/
def callAlone (w : World) (place : Place) (c : StoreCall) : c.Answer × World := w.callStore place c

/-- Let a producer add a task to a queue. -/
def produceAlone (w : World) (location : Location) (transformer : Transformer String)
    (route : Route String) (order : Order String) :
    Except ProducerError (ShardId × Int) × World :=
  w.runInline ((produce transformer route order).interpret (onShard location))

/-! ### Programs in the background -/

/-- A wait at a gate, whose end is logged. -/
def loggedWait (gate : Nat) (timeout : Delay) (policy : WakePolicy) : Conduct Unit := do
  let outcome ← Pace.waiting (A := Acts) timeout policy
  let state : LoopState ← act (.gateState gate)
  act (.say .other ("wait " ++ outcome.name ++ " state=" ++ state.name))

/-- Start a wait at a gate. -/
def startWait (w : World) (gate : Nat) (timeout : Delay) (policy : WakePolicy) : World :=
  w.spawn (.once gate (.ready (loggedWait gate timeout policy)))

/-- What an iteration of a scripted loop does: it works and then waits. -/
structure BodyStep where
  workMillis : Nat := 0
  timeout : Delay := .zero
  policy : WakePolicy := .allow
  deriving DecidableEq, Repr

instance : Inhabited BodyStep := ⟨{}⟩

/-- An iteration of a scripted loop at a gate. -/
def loggedBody (gate : Nat) (steps : List BodyStep) (round : Nat) : Conduct Unit := do
  let step := (Script.next { steps, used := round - 1 : Script BodyStep }).1
  let name := "body " ++ decimal round
  let state : LoopState ← act (.gateState gate)
  act (.say .other (name ++ " state=" ++ state.name))
  sleepMillis step.workMillis
  let outcome ← Pace.waiting (A := Acts) step.timeout step.policy
  act (.say .other (name ++ " " ++ outcome.name))

/-- Start a scripted loop at a gate. -/
def startLoop (w : World) (gate : Nat) (steps : List BodyStep) : World :=
  w.spawn (.loop gate (loggedBody gate steps) .new "run ended")

/-- Start a round of a worker with a scripted iteration at a gate. -/
def startRound (w : World) (gate : Nat) (place : Place) : World :=
  w.spawn (.once gate (.ready (roundAt place scriptedRun)))

/-- A round of a watch: wait, and look at the files unless it was cancelled. -/
def watchRound (watch : Nat) (interval : Delay) : Conduct Unit := do
  match ← Pace.waiting (A := Acts) interval .deny with
  | .cancelled => return ()
  | _ => act (.look watch)

/-- The shortest interval between two looks at files. -/
def shortestInterval : Delay := Delay.ofMillis 1

/-- Start to watch the files. -/
def startWatch (w : World) (keyPrefix : String) (interval : Delay) : World :=
  let interval := if interval < shortestInterval then shortestInterval else interval
  let (gate, w) := w.addGate (.new false)
  { w with watches := w.watches ++ [Watch.mk gate keyPrefix w.stamps] }.spawn
    (.loop gate (fun _ => watchRound w.watches.length interval) .new "watcher stopped")

/-- Cancel all watches. -/
def stopWatches (w : World) : World :=
  w.watches.foldl (fun w watch => w.modifyGate watch.gate Gate.cancel) w

/-! ### A whole service -/

/-- Serve queues whose consumers finish every task, on one shard with a row for each payload in each
queue, and start them for some milliseconds. -/
def trial (shard : ShardId) (configs : List QueueConfig) (payloads : List (Option String))
    (millis : Nat) : List (QueueConfig × Except ServiceError Bool) × World :=
  let (served, w) := (new [(shard, { store := default })]).serveAll finisher configs
  let w := configs.foldl (fun w c => w.enqueuePayloads ⟨shard, c.location⟩ payloads) w
  (served, (w.withService w.service.startAll).advance millis)

/-! ### Waiting for the end -/

/-- The answers to the requests of waiting for pools. -/
def answerAwait : (c : AwaitCall (QueueId × ShardId)) → World → c.Answer × World
  | .clock, w => (w.now, w)
  | .awaitPool (queue, shard) timeout, w => w.awaitTermination queue shard timeout
  | .hasEnded (queue, shard), w => (w.isTerminated queue shard, w)

/-- Wait for the pools of a queue; gives the shards whose pool has not ended. -/
def awaitQueue (w : World) (queue : QueueId) (timeout : Delay) :
    Except ServiceError (List ShardId) × World :=
  match w.service.awaitTermination queue timeout with
  | .error e => (.error e, w)
  | .ok waiting =>
    let (pending, w) := waiting.run answerAwait w
    (.ok pending, w)

/-- Wait for all pools; gives the queues with a pool that has not ended. -/
def awaitAll (w : World) (timeout : Delay) : List QueueId × World :=
  (w.service.awaitTerminationAll timeout).run answerAwait w

end World

end DurableQueue.Simulation
