import DurableQueue.Simulation.World

/-!
# Running a world

Everything in progress takes turns: the first thing that can go on runs until it is blocked and then
goes behind all others. When nothing can go on, the world stands still until time passes.

* `World.turn` is one step of something in progress, and `World.settle` runs all to a standstill;
* `World.advance` lets time pass, and stops at every moment at which something can go on;
* `World.awaitTermination` lets time pass until a pool has ended, and `World.runJob` until a task
  that was handed off is done;
* `World.runInline` runs a program with nothing else in progress.

All of them are given a bound on the number of steps, which no simulation comes near.
-/

namespace DurableQueue.Simulation

namespace World

/-- A bound on the number of steps. -/
def manySteps : Nat := 1000000000

/-! ### Steps -/

/-- An iteration of a worker of a place: the scripted one, or the one of its consumer. -/
def workerRound (w : World) (place : Place) (mode : ProcessingMode) : Conduct Unit :=
  roundAt place <|
    match w.runner with
    | some _ => scriptedRun
    | none => iterationAt place (w.consumer place.queue).transformer mode

/-- Change a worker. -/
def modifyWorker (w : World) (queue : QueueId) (shard : ShardId) (i : Nat)
    (f : Worker Acts → Worker Acts) : World :=
  { w with service := w.service.modifyPool queue shard fun p => p.modify i f }

/-- Note that a worker has exited. -/
def exitWorker (w : World) (queue : QueueId) (shard : ShardId) (i : Nat) : World :=
  w.modifyWorker queue shard i fun x => { x with exited := true }

/-- One step of a worker; nothing when it is blocked. -/
def turnWorker (w : World) (queue : QueueId) (shard : ShardId) (i : Nat) :
    Option (World × Option Fiber) :=
  let this := Fiber.worker queue shard i
  match w.service.queues.get? queue with
  | none => some (w, none)
  | some q =>
    match (q.pools.get? shard).bind fun p => p.workers[i]? with
    | none => some (w, none)
    | some x =>
      if x.aborted then some (w.exitWorker queue shard i, none)
      else
        match x.loop.turn (fun _ => w.workerRound ⟨shard, q.location⟩ q.mode) w.now x.gate with
        | .moves loop gate =>
          some (w.modifyWorker queue shard i fun x => { x with loop, gate }, some this)
        | .asks a next =>
          let (answer, w) := w.perform a
          some (w.modifyWorker queue shard i fun x => { x with loop := next answer }, some this)
        | .blocked => none
        | .over => some (w.exitWorker queue shard i, none)
        | .fails gate =>
          some (w.modifyWorker queue shard i fun x => { x with gate, exited := true }, none)

/-- One step of something in progress: the world after it, and the thing if it is not over;
nothing when it is blocked. -/
def turn (w : World) : Fiber → Option (World × Option Fiber)
  | .worker queue shard i => w.turnWorker queue shard i
  | .once g activity =>
    match activity.turn w.now (w.gate g) with
    | .moves activity gate => some (w.modifyGate g fun _ => gate, some (.once g activity))
    | .asks a next =>
      let (answer, w) := w.perform a
      some (w, some (.once g (next answer)))
    | .blocked => none
    | .over => some (w, none)
    | .fails gate => some (w.modifyGate g fun _ => gate, none)
  | .loop g body loop farewell =>
    match loop.turn body w.now (w.gate g) with
    | .moves loop gate => some (w.modifyGate g fun _ => gate, some (.loop g body loop farewell))
    | .asks a next =>
      let (answer, w) := w.perform a
      some (w, some (.loop g body (next answer) farewell))
    | .blocked => none
    | .over => some (w.say .other farewell, none)
    | .fails gate => some (w.modifyGate g fun _ => gate, none)

/-- Run something until it is blocked or over. -/
def runFiber : Nat → World → Fiber → World × Option Fiber
  | 0, w, f => (w, some f)
  | n + 1, w, f =>
    match w.turn f with
    | none => (w, some f)
    | some (w, none) => (w, none)
    | some (w, some f) => runFiber n w f

/-- The first of several things that can go on, and the others. -/
def movable? (w : World) : List Fiber → Option (Fiber × List Fiber)
  | [] => none
  | f :: fs =>
    if (w.turn f).isSome then some (f, fs)
    else (movable? w fs).map fun (g, gs) => (g, f :: gs)

/-- Run everything to a standstill. -/
def settle : Nat → World → World
  | 0, w => w
  | n + 1, w =>
    match w.movable? w.fibers with
    | none => w
    | some (f, others) =>
      match runFiber manySteps { w with fibers := others } f with
      | (w, none) => settle n w
      | (w, some f) => settle n (w.spawn f)

/-! ### Time -/

/-- The moment at which time alone lets something go on. -/
def alarm? (w : World) : Fiber → Option Nat
  | .worker queue shard i => do
    let q ← w.service.queues.get? queue
    let p ← q.pools.get? shard
    let x ← p.workers[i]?
    x.alarm?
  | .once _ activity => activity.alarm?
  | .loop _ _ loop _ => loop.alarm?

/-- The next moment at which time alone lets something go on. -/
def nextAlarm? (w : World) : Option Nat := (w.fibers.filterMap w.alarm?).min?

/-- Let time pass up to some moment. -/
def advanceTo (target : Nat) : Nat → World → World
  | 0, w => w
  | n + 1, w =>
    let w := w.settle manySteps
    match w.nextAlarm? with
    | none => { w with now := target }
    | some t => if t ≤ target then advanceTo target n { w with now := t } else { w with now := target }

/-- Let milliseconds pass. -/
def advance (w : World) (ms : Nat) : World :=
  (w.advanceTo (w.now + ms * nanosPerMilli) manySteps).settle manySteps

/-- Let time pass until a condition holds, but not beyond some moment; says whether it does. -/
def awaitUntil (holds : World → Bool) (deadline : Nat) : Nat → World → Bool × World
  | 0, w => (holds w, w)
  | n + 1, w =>
    if holds w then (true, w)
    else
      let w := w.settle manySteps
      if holds w then (true, w)
      else
        match w.nextAlarm? with
        | none => (false, { w with now := max w.now deadline })
        | some t =>
          if t ≤ deadline then awaitUntil holds deadline n { w with now := t }
          else (false, { w with now := max w.now deadline })

/-- The pool of a queue on a shard. -/
def pool? (w : World) (queue : QueueId) (shard : ShardId) : Option (Pool Acts) := do
  (← w.service.queues.get? queue).pools.get? shard

/-- Whether the pool of a queue on a shard is terminated. -/
def isTerminated (w : World) (queue : QueueId) (shard : ShardId) : Bool :=
  (w.pool? queue shard).any (·.isTerminated)

/-- Let time pass until a pool has ended, but no longer than a delay; says whether it has. -/
def awaitTermination (w : World) (queue : QueueId) (shard : ShardId) (timeout : Delay) :
    Bool × World :=
  w.awaitUntil (·.isTerminated queue shard) (w.now + timeout.nanos) manySteps

/-! ### Programs in the foreground -/

/-- Let time pass until something is over. -/
def runForeground : Nat → World → Fiber → World
  | 0, w, _ => w
  | n + 1, w, f =>
    match runFiber manySteps w f with
    | (w, none) => w
    | (w, some f) =>
      let w := w.settle manySteps
      if (w.turn f).isSome then runForeground n w f
      else
        match (w.nextAlarm?.toList ++ (w.alarm? f).toList).min? with
        | none => w
        | some t => runForeground n { w with now := max w.now t } f

/-- Run a task that was handed off, letting time pass until it is done. -/
def runJob (w : World) (job : Job) : World :=
  let (gate, w) := w.addGate (.new false)
  w.runForeground manySteps
    (.once gate (.ready (jobAt job.place (w.consumer job.place.queue).transformer job.record)))

/-- Run all tasks that were handed off, in their order; gives their number. -/
def runJobs (w : World) : Nat × World :=
  let jobs := w.jobs
  (jobs.length, jobs.foldl runJob { w with jobs := [] })

/-- Answer the request of a program when nothing else is in progress. -/
def answerInline : (r : Pace Act) → World → Pace.Answer Acts r × World
  | .act a, w => w.perform a
  | .sleep nanos, w => ((), { w with now := w.now + nanos })
  | .wait timeout _, w => (.elapsed, { w with now := w.now + timeout.nanos })

/-- Run a program when nothing else is in progress. -/
def runInline {α : Type} (w : World) (p : Conduct α) : α × World := p.run answerInline w

end World

end DurableQueue.Simulation
