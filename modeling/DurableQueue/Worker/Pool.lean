import DurableQueue.Count
import DurableQueue.Settings.Cell
import DurableQueue.Worker.Loop

/-!
# Pools of workers

A pool holds the workers of one queue on one shard. Workers are numbered in the order in which they
were spawned and are never forgotten, so that the pool knows when the last one has exited.

* `Pool.live` lists the workers that serve the queue, oldest first. Growing the pool spawns workers
  behind them, shrinking it cancels the youngest ones;
* `Pool.retired` lists cancelled workers that may still be in an iteration;
* `Pool.shutdown` cancels all workers and aborts them, wherever they are;
* `Pool.isTerminated` says that the pool is shut down and every worker has exited.
-/

namespace DurableQueue

/-- A worker: its gate, what it is doing, and whether it was aborted and has exited. -/
structure Worker (A : Signature) where
  gate : Gate
  loop : Loop A := {}
  aborted : Bool := false
  exited : Bool := false

namespace Worker

variable {A : Signature}

/-- A new worker. -/
def new (paused : Bool) : Worker A := { gate := .new paused }

/-- Change the gate of a worker. -/
def withGate (f : Gate → Gate) (w : Worker A) : Worker A := { w with gate := f w.gate }

/-- Drop a worker wherever it is. -/
def abort (w : Worker A) : Worker A := { w with aborted := true }

/-- The moment at which time alone lets a worker go on. -/
def alarm? (w : Worker A) : Option Nat := if w.exited then none else w.loop.alarm?

end Worker

/-- The workers of a queue on a shard. -/
structure Pool (A : Signature) where
  /-- All workers that were ever spawned. -/
  workers : List (Worker A) := []
  /-- The numbers of the workers that serve the queue, oldest first. -/
  live : List Nat := []
  /-- The numbers of cancelled workers that may not have exited. -/
  retired : List Nat := []
  paused : Bool := false
  started : Bool := false
  isShutdown : Bool := false
  /-- The registration with the processing settings. -/
  observer : Option ObserverId := none

namespace Pool

variable {A : Signature}

/-- A pool without workers. -/
def new : Pool A := {}

/-- The number of workers that serve the queue. -/
def size (p : Pool A) : Nat := p.live.length

/-- Whether a worker has exited. -/
def hasExited (p : Pool A) (i : Nat) : Bool := p.workers[i]?.any (·.exited)

/-- Change a worker. -/
def modify (p : Pool A) (i : Nat) (f : Worker A → Worker A) : Pool A :=
  { p with workers := p.workers.modify i f }

/-- Change several workers. -/
def modifyAll (p : Pool A) (is : List Nat) (f : Worker A → Worker A) : Pool A :=
  is.foldl (fun p i => p.modify i f) p

/-! ### Size -/

/-- Spawn a worker that serves the queue. -/
def spawn (p : Pool A) : Pool A :=
  { p with workers := p.workers ++ [.new p.paused], live := p.live ++ [p.workers.length] }

/-- Spawn several workers. -/
def grow (p : Pool A) : Nat → Pool A
  | 0 => p
  | n + 1 => p.spawn.grow n

/-- Cancel the youngest workers, so that at most `n` are left; the youngest retires first. -/
def shrink (p : Pool A) (n : Nat) : Pool A :=
  let gone := (p.live.drop n).reverse
  { p.modifyAll gone (Worker.withGate Gate.cancel) with
    live := p.live.take n
    retired := p.retired ++ gone }

/-- Forget retired workers that have exited. -/
def tidy (p : Pool A) : Pool A := { p with retired := p.retired.filter fun i => !p.hasExited i }

/-- Give the queue `n` workers. -/
def resizeTo (p : Pool A) (n : Nat) : Pool A := (p.tidy.grow (n - p.size)).shrink n

/-- Give the queue a number of workers, unless the pool is shut down. -/
def resize (p : Pool A) (threadCount : Count) : Pool A :=
  if p.isShutdown then p else p.resizeTo threadCount.val

/-! ### Operations -/

/-- Whether the pool can still be started. -/
def canStart (p : Pool A) : Bool := !p.started && !p.isShutdown

/-- Spawn the workers, unless that was done before or the pool is shut down. -/
def start (p : Pool A) (threadCount : Count) : Pool A :=
  if p.canStart then { p with started := true }.resizeTo threadCount.val else p

/-- Let the workers begin no further iteration. -/
def pause (p : Pool A) : Pool A :=
  { p with paused := true }.modifyAll p.live (Worker.withGate Gate.pause)

/-- Let the workers begin iterations again. -/
def unpause (p : Pool A) : Pool A :=
  { p with paused := false }.modifyAll p.live (Worker.withGate Gate.unpause)

/-- End the waits of workers that have found no task. -/
def wakeup (p : Pool A) : Pool A := p.modifyAll p.live (Worker.withGate Gate.requestWake)

/-- Cancel every worker. -/
def cancelAll (p : Pool A) : Pool A :=
  { p with workers := p.workers.map (Worker.withGate Gate.cancel) }

/-- Cancel every worker and abort those that have not exited. -/
def shutdown (p : Pool A) : Pool A :=
  if p.isShutdown then p
  else
    let p := { (p.resizeTo 0).cancelAll with isShutdown := true, observer := none }
    p.modifyAll p.retired Worker.abort

/-- The pool is shut down and every worker has exited. -/
def isTerminated (p : Pool A) : Bool := p.isShutdown && p.workers.all (·.exited)

end Pool

end DurableQueue
