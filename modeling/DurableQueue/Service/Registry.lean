import DurableQueue.Service.Queue

/-!
# The service

The service has a set of shards and the queues that were registered with it.

* `Service.enroll` puts a queue into service, for which it builds a pool on every shard. The queue
  keeps the cells of its settings, which it may share with others. The first registration of a queue
  stays, and a queue whose iterations cannot be built leaves nothing behind. `Service.register` does
  so for settings with cells of their own and a consumer that answers alike on all shards;
* `Service.queues` are the queues in service with their cells, and `Service.modify` changes one;
* `Service.start`, `pause`, `unpause`, `shutdown` and `wakeup` act on one queue, the functions named
  `…All` on every queue;
* `Service.update` applies configurations, all of which have to name registered queues.
-/

namespace DurableQueue

/-- What a service refuses. -/
inductive ServiceError
  | queueNotRegistered (queue : QueueId)
  | shardNotFound (shard : ShardId)
  /-- The mode of a queue needs an executor and its consumer has none. -/
  | executorRequired (queue : QueueId)
  deriving DecidableEq, Repr

namespace ServiceError

/-- The wording of a service error. -/
def message : ServiceError → String
  | .queueNotRegistered q => "queue is not registered: " ++ q
  | .shardNotFound s => "shard not found: " ++ s
  | .executorRequired q =>
    "queue " ++ q ++ " uses the external executor mode but its consumer provides no executor"

/-- The kind of a service error. -/
def kind : ServiceError → String
  | .queueNotRegistered _ => "QueueNotRegistered"
  | .shardNotFound _ => "ShardNotFound"
  | .executorRequired _ => "ExecutorRequired"

end ServiceError

/-- Whether the iterations of a queue can be built, given whether its consumer has an executor. -/
def checkExecutor (queue : QueueId) (mode : ProcessingMode) (hasExecutor : Bool) :
    Except ServiceError Unit :=
  if mode = .useExternalExecutor ∧ hasExecutor = false then .error (.executorRequired queue)
  else .ok ()

/-- Build a pool for one shard after the other, next to those that there are. The first shard on
which the iterations cannot be built is an error. -/
def buildPools {A : Signature} (queue : QueueId) (mode : ProcessingMode) (offers : ShardId → Bool) :
    List ShardId → Dict (Pool A) → Except ServiceError (Dict (Pool A))
  | [], pools => .ok pools
  | shard :: shards, pools =>
    match checkExecutor queue mode (offers shard) with
    | .error e => .error e
    | .ok () => buildPools queue mode offers shards (pools.insert shard .new)

/-- The shards of a service, its queues, and the cells of all settings. -/
structure Service (A : Signature) (ω : Type) where
  shards : List ShardId
  cells : Cells ω := {}
  entries : Dict (QueueEntry A) := .empty

namespace Service

variable {A : Signature} {ω υ : Type}

/-- A service without queues. -/
def new (shards : List ShardId) : Service A ω :=
  { shards := (Dict.ofList (shards.map fun s => (s, ()))).keys }

/-- A queue with its cells. -/
def load (s : Service A ω) (queue : QueueId) (e : QueueEntry A) : LiveQueue A ω :=
  { e, s.cells.load e.address with queue }

/-- The queues in service. -/
def queues (s : Service A ω) : Dict (LiveQueue A ω) := s.entries.mapValues s.load

/-- Put a queue and its cells back. -/
def store (s : Service A ω) (q : LiveQueue A ω) : Service A ω :=
  { s with
    cells := s.cells.store q.address q.toLiveSettings
    entries := s.entries.insert q.queue q.toQueueEntry }

/-! ### Registrations -/

/-- Put a queue with some settings into service; says whether it is new. Its consumer is asked for
an executor on each shard in turn, and a queue whose iterations cannot be built leaves nothing
behind. -/
def enroll (s : Service A ω) (location : Location) (address : Addresses)
    (offers : ShardId → Bool) : Except ServiceError Bool × Service A ω :=
  if s.entries.contains location.queue then (.ok false, s)
  else
    let mode := (s.cells.load address).processing.value.mode
    match buildPools location.queue mode offers s.shards .empty with
    | .error e => (.error e, s)
    | .ok pools =>
      let entry := ⟨location.table, location.idSequence, mode, address, pools⟩
      (.ok true, { s with entries := s.entries.insert location.queue entry })

/-- Put a queue with settings of its own into service. Its consumer has an executor or has none. -/
def register (s : Service A ω) (config : QueueConfig) (hasExecutor : Bool) :
    Except ServiceError (Bool × Service A ω) :=
  let (address, cells) := s.cells.create config.settings
  match { s with cells }.enroll config.location address fun _ => hasExecutor with
  | (.ok true, s) => .ok (true, s)
  | (.ok false, _) => .ok (false, s)
  | (.error e, _) => .error e

/-- The queue in service, if it is registered. -/
def queue (s : Service A ω) (queue : QueueId) : Except ServiceError (LiveQueue A ω) :=
  match s.queues.get? queue with
  | some q => .ok q
  | none => .error (.queueNotRegistered queue)

/-- Change a queue. Others that hold the same cells see what becomes of these. -/
def modify (s : Service A ω) (queue : QueueId) (f : LiveQueue A ω → LiveQueue A ω) :
    Service A ω :=
  match s.queues.get? queue with
  | some q => s.store (f q)
  | none => s

/-- Change the pool of a queue on a shard. -/
def modifyPool (s : Service A ω) (queue : QueueId) (shard : ShardId) (f : Pool A → Pool A) :
    Service A ω :=
  { s with entries := s.entries.modify queue fun e => { e with pools := e.pools.modify shard f } }

/-- Change all queues, one after the other. -/
def modifyAll (s : Service A ω) (f : LiveQueue A ω → LiveQueue A ω) : Service A ω :=
  s.entries.keys.foldl (fun s queue => s.modify queue f) s

/-- Change a queue that has to be registered. -/
def modify? (s : Service A ω) (queue : QueueId) (f : LiveQueue A ω → LiveQueue A ω) :
    Except ServiceError (Service A ω) :=
  match s.queue queue with
  | .ok _ => .ok (s.modify queue f)
  | .error e => .error e

/-! ### One queue -/

/-- Start the workers of a queue. -/
def start (s : Service A ω) (queue : QueueId) : Except ServiceError (Service A ω) :=
  s.modify? queue LiveQueue.start

/-- Pause the workers of a queue. -/
def pause (s : Service A ω) (queue : QueueId) : Except ServiceError (Service A ω) :=
  s.modify? queue LiveQueue.pause

/-- Unpause the workers of a queue. -/
def unpause (s : Service A ω) (queue : QueueId) : Except ServiceError (Service A ω) :=
  s.modify? queue LiveQueue.unpause

/-- Shut the workers of a queue down. -/
def shutdown (s : Service A ω) (queue : QueueId) : Except ServiceError (Service A ω) :=
  s.modify? queue LiveQueue.shutdown

/-- Wake up the workers of a queue on a shard. -/
def wakeup (s : Service A ω) (queue : QueueId) (shard : ShardId) :
    Except ServiceError (Service A ω) :=
  match s.queue queue with
  | .error e => .error e
  | .ok q =>
    if q.pools.contains shard then .ok (s.modifyPool queue shard Pool.wakeup)
    else .error (.shardNotFound shard)

/-- Whether all workers of a queue are paused. -/
def isPaused (s : Service A ω) (queue : QueueId) : Except ServiceError Bool :=
  (s.queue queue).map LiveQueue.isPaused

/-- Whether a queue is shut down. -/
def isShutdown (s : Service A ω) (queue : QueueId) : Except ServiceError Bool :=
  (s.queue queue).map LiveQueue.isShutdown

/-- Whether a queue is terminated. -/
def isTerminated (s : Service A ω) (queue : QueueId) : Except ServiceError Bool :=
  (s.queue queue).map LiveQueue.isTerminated

/-! ### All queues -/

/-- Start all workers. -/
def startAll (s : Service A ω) : Service A ω := s.modifyAll LiveQueue.start

/-- Pause all workers. -/
def pauseAll (s : Service A ω) : Service A ω := s.modifyAll LiveQueue.pause

/-- Unpause all workers. -/
def unpauseAll (s : Service A ω) : Service A ω := s.modifyAll LiveQueue.unpause

/-- Shut all workers down. -/
def shutdownAll (s : Service A ω) : Service A ω := s.modifyAll LiveQueue.shutdown

/-- Whether all queues are paused. -/
def isPausedAll (s : Service A ω) : Bool := s.queues.values.all (·.isPaused)

/-- Whether all queues are shut down. -/
def isShutdownAll (s : Service A ω) : Bool := s.queues.values.all (·.isShutdown)

/-- Whether all queues are terminated. -/
def isTerminatedAll (s : Service A ω) : Bool := s.queues.values.all (·.isTerminated)

/-! ### Settings -/

/-- Resize a pool of a queue that holds a cell of processing settings. -/
def resizePool (address : Addresses) : Resize (Dict (QueueEntry A)) :=
  fun queue shard threadCount entries =>
    entries.modify queue fun e =>
      if e.address .processing = address .processing then
        { e with pools := e.pools.modify shard fun p => p.resize threadCount }
      else e

/-- Change one group of some settings; gives the summary of the change. -/
def setGroup (judge : Judge ω υ) (s : Service A ω) (address : Addresses) (new : GroupValue)
    (u : υ) : String × Service A ω × υ :=
  let (summary, l, entries, u) :=
    (s.cells.load address).setGroup judge (resizePool address) new s.entries u
  (summary, { s with cells := s.cells.store address l, entries }, u)

/-- Change all of some settings but the processing mode; gives the summaries of the changes. -/
def apply (judge : Judge ω υ) (s : Service A ω) (address : Addresses) (new : QueueSettings)
    (u : υ) : String × Service A ω × υ :=
  let (changes, l, entries, u) :=
    (s.cells.load address).apply judge (resizePool address) new s.entries u
  (changes, { s with cells := s.cells.store address l, entries }, u)

/-- The summaries of changes by queue. -/
abbrev Changes := Dict String

/-- Apply a configuration to a queue; a summary that is not empty is noted. -/
def applyConfig (judge : Judge ω υ) (config : GivenConfig) (s : Service A ω) (changes : Changes)
    (u : υ) : Service A ω × Changes × υ :=
  match s.entries.get? config.location.queue with
  | none => (s, changes, u)
  | some e =>
    let (summary, s, u) := s.apply judge e.address (s.cells.read config.settings) u
    (s, if summary = "" then changes else changes.insert config.location.queue summary, u)

/-- Apply configurations one after the other. -/
def applyConfigs (judge : Judge ω υ) :
    List GivenConfig → Service A ω → Changes → υ → Service A ω × Changes × υ
  | [], s, changes, u => (s, changes, u)
  | c :: cs, s, changes, u =>
    let (s, changes, u) := applyConfig judge c s changes u
    applyConfigs judge cs s changes u

/-- Apply configurations. The first one that names no registered queue is an error, and then
nothing changes. -/
def update (judge : Judge ω υ) (s : Service A ω) (configs : List GivenConfig) (u : υ) :
    Except ServiceError Changes × Service A ω × υ :=
  match configs.find? fun c => !s.entries.contains c.location.queue with
  | some c => (.error (.queueNotRegistered c.location.queue), s, u)
  | none =>
    let (s, changes, u) := applyConfigs judge configs s .empty u
    (.ok changes, s, u)

end Service

end DurableQueue
