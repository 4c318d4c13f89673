import DurableQueue.Service.Reload
import DurableQueue.Simulation.Act
import DurableQueue.Simulation.Recorder
import DurableQueue.Simulation.RowClock

/-!
# The simulated world

A world holds a service with its stores, the collaborators that follow scripts, two clocks and a
log. The first clock is virtual: it moves only when the world is told so. The second one is read for
rows; it stands almost still, but no two readings are the same.

* `World` is the state, and `Fiber` something in progress in it;
* `World.perform` performs an act and gives its answer.
-/

namespace DurableQueue.Simulation

/-- Where the consumer of a queue runs tasks that are handed off. -/
inductive Executor
  | none
  /-- They are collected, to be run on demand. -/
  | collecting
  /-- They are started at once. -/
  | starting
  deriving DecidableEq, Repr

/-- A consumer that follows a script. -/
structure Consumer where
  transformer : Transformer String := .text
  script : Script ConsumerStep := ⟨[], 0⟩
  executor : Executor := .none

/-- Something in progress, at the gate of a number. -/
inductive Fiber
  /-- The worker of a number, of a queue on a shard. -/
  | worker (queue : QueueId) (shard : ShardId) (index : Nat)
  | once (gate : Nat) (activity : Activity Acts)
  /-- A loop, and what is logged at its end. -/
  | loop (gate : Nat) (body : Nat → Conduct Unit) (loop : Loop Acts) (farewell : String)

/-- An observer that refuses all changes, for a reason. -/
structure Refusal where
  setting : String
  reason : String
  deriving DecidableEq, Repr

/-- Every change is refused. -/
def Refusal.judge : Judge Refusal Unit := fun o _ _ u => (.error (.rejected o.setting o.reason), u)

/-- A watch over the files: the gate at which it is cancelled, and what was last seen. -/
structure Watch where
  gate : Nat
  keyPrefix : String
  stamps : List Stamp

/-- A log entry. -/
structure LogEntry where
  nanos : Nat
  source : Source
  text : String
  deriving DecidableEq, Repr

namespace LogEntry

/-- The whole milliseconds of a log entry. -/
def millis (e : LogEntry) : Nat := e.nanos / nanosPerMilli

/-- Whether an entry may stand before another one when they are ordered by time and text. -/
def notAfter (a b : LogEntry) : Bool :=
  a.millis < b.millis || (a.millis == b.millis && !(b.text < a.text))

/-- Log entries in the order of their times, those of the same time in the order of their texts. -/
def inOrder (log : List LogEntry) : List LogEntry := log.mergeSort notAfter

end LogEntry

/-- A task that was handed off. -/
structure Job where
  place : Place
  record : TaskRecord
  deriving DecidableEq, Repr

/-- The state of a simulation. The log is kept latest first. -/
structure World where
  now : Nat := 0
  rowClock : RowClock := {}
  shards : Dict FaultyStore
  service : Service Acts Refusal
  consumers : Dict Consumer := .empty
  runner : Option (Script RunnerStep) := none
  gates : List Gate := []
  fibers : List Fiber := []
  jobs : List Job := []
  files : List (Option String) := []
  watches : List Watch := []
  log : List LogEntry := []

namespace World

/-- A world with an empty store for each shard. -/
def new (shards : List (ShardId × FaultyStore)) : World where
  shards := .ofList shards
  service := .new (shards.map (·.1))

/-! ### Clocks and log -/

/-- Read the clock for rows. -/
def readRowClock (w : World) : Instant × World :=
  let (now, rowClock) := w.rowClock.read
  (now, { w with rowClock })

/-- Add a log entry. -/
def say (w : World) (source : Source) (text : String) : World :=
  { w with log := ⟨w.now, source, text⟩ :: w.log }

/-- The log entries since the last look, oldest first. -/
def takeLog (w : World) : List LogEntry × World := (w.log.reverse, { w with log := [] })

/-! ### Gates, files and queues -/

/-- The gate of a number. -/
def gate (w : World) (i : Nat) : Gate := (w.gates[i]?).getD default

/-- Change the gate of a number. -/
def modifyGate (w : World) (i : Nat) (f : Gate → Gate) : World :=
  { w with gates := w.gates.modify i f }

/-- Add a gate; gives its number. -/
def addGate (w : World) (g : Gate) : Nat × World :=
  (w.gates.length, { w with gates := w.gates ++ [g] })

/-- The files as they are read. -/
def readableFiles (w : World) : List Config.File :=
  w.files.map fun
    | some text => .ok text
    | none => .error .notFound

/-- What is to be seen of the files. -/
def stamps (w : World) : List Stamp := w.files.map stampOf

/-- The live settings of a queue. -/
def settings (w : World) (queue : QueueId) : QueueSettings :=
  match w.service.queues.get? queue with
  | some q => q.settings
  | none => default

/-- The consumer of a queue. -/
def consumer (w : World) (queue : QueueId) : Consumer :=
  (w.consumers.get? queue).getD {}

/-! ### Fibers -/

/-- Put something in progress behind all others. -/
def spawn (w : World) (f : Fiber) : World := { w with fibers := w.fibers ++ [f] }

/-- Whether a worker is among the things in progress. -/
def hasWorker (w : World) (queue : QueueId) (shard : ShardId) (index : Nat) : Bool :=
  w.fibers.any fun
    | .worker q s i => q = queue && s = shard && i = index
    | _ => false

/-- The workers of all pools that have not exited, by queue, shard and number. -/
def allWorkers (w : World) : List (QueueId × ShardId × Nat) :=
  w.service.queues.entries.flatMap fun (queue, q) =>
    q.pools.entries.flatMap fun (shard, p) =>
      (List.range p.workers.length).filterMap fun i =>
        if p.hasExited i then none else some (queue, shard, i)

/-- Put the workers that pools have spawned among the things in progress. -/
def enroll (w : World) : World :=
  w.allWorkers.foldl (fun w (queue, shard, i) =>
    if w.hasWorker queue shard i then w else w.spawn (.worker queue shard i)) w

/-- Change the service; workers that it spawns are put in progress. -/
def withService (w : World) (service : Service Acts Refusal) : World :=
  { w with service }.enroll

/-- Read the files and apply them to the service. -/
def reloadFiles (w : World) (keyPrefix : String) :
    Except ReloadError Service.Changes × World :=
  let (r, service, ()) := reload Refusal.judge keyPrefix w.readableFiles w.service ()
  (r, w.withService service)

/-! ### Acts -/

/-- Call the store of a place. -/
def callStore (w : World) (place : Place) (c : StoreCall) : c.Answer × World :=
  let (now, w) := w.readRowClock
  let store := (w.shards.get? place.shard).getD { store := default }
  let (answer, store) := store.answer now place.location c
  (answer, { w with shards := w.shards.insert place.shard store }.say .store (c.line answer))

/-- The line that a consumer logs when it is entered. -/
def consumeLine (place : Place) (task : Task String) : String :=
  "consume " ++ place.shard ++ "/" ++ place.queue
    ++ " payload=" ++ (Json.ofOption .text task.payload).write
    ++ " attempts=" ++ task.attempts.text ++ "/" ++ task.reenqueueAttempts.text ++ "/"
    ++ task.totalAttempts.text
    ++ " extra=" ++ (Json.ofDict (Json.ofOption .text) task.extra).write

/-- Enter the consumer of a queue. -/
def enterConsumer (w : World) (place : Place) (task : Task String) : ConsumerStep × World :=
  let consumer := w.consumer place.queue
  let (step, script) := consumer.script.next
  (step, { w with consumers := w.consumers.insert place.queue { consumer with script } }.say
    .consumer (consumeLine place task))

/-- Empty all stores. -/
def clearStores (w : World) : World :=
  { w with shards := w.shards.mapValues fun _ s => { s with store := s.store.clear } }

/-- Hand a task off to the executor of its consumer. -/
def handOff (w : World) (place : Place) (record : TaskRecord) : World :=
  let consumer := w.consumer place.queue
  match consumer.executor with
  | .starting =>
    let (gate, w) := w.addGate (.new false)
    w.spawn (.once gate (.ready (jobAt place consumer.transformer record)))
  | _ => { w with jobs := w.jobs ++ [⟨place, record⟩] }

/-- Enter a scripted iteration. -/
def enterRun (w : World) : RunnerStep × World :=
  match w.runner with
  | some script => let (step, script) := script.next; (step, { w with runner := some script })
  | none => (default, w)

/-- Reload the files if they look otherwise than at the last look. -/
def look (w : World) (watch : Nat) : World :=
  match w.watches[watch]? with
  | none => w
  | some seen =>
    let stamps := w.stamps
    if seen.stamps = stamps then w
    else
      let w := { w with watches := w.watches.modify watch fun s => { s with stamps } }
      (w.reloadFiles seen.keyPrefix).2

/-- Perform an act. -/
def perform : (a : Act) → World → a.Answer × World
  | .clock, w => (w.now, w)
  | .say source text, w => ((), w.say source text)
  | .gateState i, w => ((w.gate i).state, w)
  | .settings queue, w => (w.settings queue, w)
  | .store place call, w => w.callStore place call
  | .consume place task, w => w.enterConsumer place task
  | .clear, w => ((), w.clearStores)
  | .handOff place record, w => ((), w.handOff place record)
  | .run, w => w.enterRun
  | .look watch, w => ((), w.look watch)

end World

end DurableQueue.Simulation
