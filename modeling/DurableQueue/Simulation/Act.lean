import DurableQueue.Producer
import DurableQueue.Settings.Queue
import DurableQueue.Simulation.Script
import DurableQueue.Task.Json
import DurableQueue.Worker.Loop
import DurableQueue.Worker.Poller

/-!
# Acts

The programs of workers and producers, with their requests answered by acts upon a simulated world.

* `Act` lists the acts, `Acts` is their signature;
* `onTask`, `onRound` and `onShard` answer the requests of iterations, of rounds of a worker and of
  producers;
* `iterationAt`, `jobAt` and `roundAt` are the programs of a queue on a shard.
-/

namespace DurableQueue.Simulation

/-- What a log entry stems from. -/
inductive Source
  | store
  | task
  | thread
  | consumer
  | other
  deriving DecidableEq, Repr

/-- A queue on a shard. -/
structure Place where
  shard : ShardId
  location : Location
  deriving DecidableEq, Repr

/-- The queue of a place. -/
def Place.queue (p : Place) : QueueId := p.location.queue

/-- An act upon the simulated world. -/
inductive Act
  | clock
  /-- Add an entry to the log. -/
  | say (source : Source) (text : String)
  /-- Read the state that a gate shows. -/
  | gateState (gate : Nat)
  | settings (queue : QueueId)
  | store (place : Place) (call : StoreCall)
  /-- Enter the consumer with a task; gives what it is to do. -/
  | consume (place : Place) (task : Task String)
  /-- Empty all stores. -/
  | clear
  | handOff (place : Place) (record : TaskRecord)
  /-- Enter a scripted iteration; gives what it is to do. -/
  | run
  /-- Look whether watched files have changed. -/
  | look (watch : Nat)

/-- The type of what an act gives. -/
def Act.Answer : Act → Type
  | .clock => Nat
  | .say _ _ => Unit
  | .gateState _ => LoopState
  | .settings _ => QueueSettings
  | .store _ call => call.Answer
  | .consume _ _ => ConsumerStep
  | .clear => Unit
  | .handOff _ _ => Unit
  | .run => RunnerStep
  | .look _ => Unit

/-- The signature of acts. -/
def Acts : Signature := ⟨Act, Act.Answer⟩

/-- The programs that act, sleep and wait. -/
abbrev Conduct (α : Type) := PacedProgram Acts α

/-- Perform an act. -/
def act (a : Act) : Conduct a.Answer := Pace.doing (A := Acts) a

/-- Sleep for a number of milliseconds. -/
def sleepMillis (ms : Nat) : Conduct Unit := Pace.sleeping (ms * nanosPerMilli)

/-- Run a scripted consumer on a task. -/
def consumeAt (place : Place) (task : Task String) : Conduct ConsumerOutcome := do
  let step : ConsumerStep ← act (.consume place task)
  sleepMillis step.sleepMillis
  if step.clear then act .clear
  return step.outcome

/-- Answer the requests of an iteration. -/
def onTask (place : Place) : (c : TaskCall String) → Conduct c.Answer
  | .clock => act .clock
  | .failureSettings => do
    let settings : QueueSettings ← act (.settings place.queue)
    return settings.failure
  | .reenqueueSettings => do
    let settings : QueueSettings ← act (.settings place.queue)
    return settings.reenqueue
  | .store call => act (.store place call)
  | .consume task => consumeAt place task
  | .notify record event =>
    act (.say .task (TaskNotice.line ⟨place.shard, place.queue, record, event⟩))
  | .handOff record => act (.handOff place record)

/-- Run a scripted iteration. -/
def scriptedRun : Conduct RunOutcome := do
  let step : RunnerStep ← act .run
  sleepMillis step.sleepMillis
  return step.outcome

/-- Answer the requests of a round of a worker that runs some iteration. -/
def onRound (place : Place) (run : Conduct RunOutcome) : (c : PollCall) → Conduct c.Answer
  | .clock => act .clock
  | .pollSettings => do
    let settings : QueueSettings ← act (.settings place.queue)
    return settings.poll
  | .notify event => act (.say .thread (ThreadNotice.line ⟨place.shard, place.queue, event⟩))
  | .runQueue => run
  | .wait timeout policy => Pace.waiting timeout policy

/-- Answer the requests of a producer of a queue. -/
def onShard (location : Location) (c : ShardCall) : Conduct c.call.Answer :=
  act (.store ⟨c.shard, location⟩ c.call)

/-- An iteration over a queue of a shard. -/
def iterationAt (place : Place) (transformer : Transformer String) (mode : ProcessingMode) :
    Conduct RunOutcome :=
  (iteration transformer place.shard mode).interpret (onTask place)

/-- The processing of a task that was handed off. -/
def jobAt (place : Place) (transformer : Transformer String) (record : TaskRecord) :
    Conduct Unit :=
  (Iteration.processDetached transformer place.shard record).interpret (onTask place)

/-- A round of a worker that runs some iteration. -/
def roundAt (place : Place) (run : Conduct RunOutcome) : Conduct Unit :=
  Poller.poll.interpret (onRound place run)

end DurableQueue.Simulation
