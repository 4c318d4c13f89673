import DurableQueue.Settings.Live
import DurableQueue.Worker.Pool

/-!
# Queues in service

A queue in service has live settings and one pool for each shard. Its pools observe the thread
count; others may observe any group and refuse changes. The processing mode is the one that the
queue was registered with.

* `QueueEntry` is a queue as it is registered: its settings are held by reference, and other queues
  may hold the same cells. `LiveQueue` is the queue with its cells at hand;
* `LiveQueue.start`, `pause`, `unpause` and `shutdown` act on the pools.
-/

namespace DurableQueue

/-- A queue that was registered. -/
structure QueueEntry (A : Signature) where
  table : String
  idSequence : Option String
  /-- The mode that the iterations of its workers were built for. -/
  mode : ProcessingMode
  /-- The cells of its settings. -/
  address : Addresses
  pools : Dict (Pool A)

/-- A queue in service, with the cells of its settings. -/
structure LiveQueue (A : Signature) (ω : Type) extends QueueEntry A, LiveSettings ω where
  queue : QueueId

namespace LiveQueue

variable {A : Signature} {ω : Type}

/-- The place of a queue. -/
def location (q : LiveQueue A ω) : Location := ⟨q.queue, q.table, q.idSequence⟩

/-- Change the pool of a shard. -/
def modifyPool (q : LiveQueue A ω) (shard : ShardId) (f : Pool A → Pool A) : LiveQueue A ω :=
  { q with pools := q.pools.modify shard f }

/-- Change all pools. -/
def mapPools (q : LiveQueue A ω) (f : Pool A → Pool A) : LiveQueue A ω :=
  { q with pools := q.pools.mapValues fun _ p => f p }

/-- Start the pool of a shard, which from then on follows the thread count. -/
def startPool (q : LiveQueue A ω) (shard : ShardId) : LiveQueue A ω :=
  if (q.pools.get? shard).any (·.canStart) then
    let (id, processing) := q.processing.register (.pool q.queue shard)
    { q with processing }.modifyPool shard fun p =>
      { p.start q.processing.value.threadCount with observer := some id }
  else q

/-- Shut the pool of a shard down, which no longer follows the thread count. -/
def shutdownPool (q : LiveQueue A ω) (shard : ShardId) : LiveQueue A ω :=
  let processing :=
    match (q.pools.get? shard).bind (·.observer) with
    | some id => (q.processing.unregister id).2
    | none => q.processing
  { q with processing }.modifyPool shard Pool.shutdown

/-- Start all pools. -/
def start (q : LiveQueue A ω) : LiveQueue A ω := q.pools.keys.foldl startPool q

/-- Pause all pools. -/
def pause (q : LiveQueue A ω) : LiveQueue A ω := q.mapPools Pool.pause

/-- Unpause all pools. -/
def unpause (q : LiveQueue A ω) : LiveQueue A ω := q.mapPools Pool.unpause

/-- Shut all pools down. -/
def shutdown (q : LiveQueue A ω) : LiveQueue A ω := q.pools.keys.foldl shutdownPool q

/-- Whether all pools are paused. -/
def isPaused (q : LiveQueue A ω) : Bool := q.pools.values.all (·.paused)

/-- Whether all pools are shut down. -/
def isShutdown (q : LiveQueue A ω) : Bool := q.pools.values.all (·.isShutdown)

/-- Whether all pools are terminated. -/
def isTerminated (q : LiveQueue A ω) : Bool := q.pools.values.all (·.isTerminated)

/-- Let somebody observe one group of the settings. -/
def observe (q : LiveQueue A ω) (group : Group) (o : ω) : LiveQueue A ω :=
  { q with toLiveSettings := q.toLiveSettings.observe group o }

end LiveQueue

end DurableQueue
