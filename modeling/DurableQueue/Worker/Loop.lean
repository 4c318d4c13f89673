import DurableQueue.Program
import DurableQueue.Worker.Gate

/-!
# The loop of a worker

A worker runs its iteration again and again until it is cancelled, and begins none while it is
paused. An iteration is a program that acts, sleeps and waits; what it acts upon is left open.

* `Paced` adds sleeping and waiting to the requests of a program;
* `Activity` is such a program in progress, and `Activity.turn` its next step;
* `Loop` is a worker in progress, and `Loop.turn` its next step: to look at the gate, to begin
  an iteration, or a step of the iteration that it is in. A panic of an iteration is one of its
  worker;
* `alarm?` is the moment at which time alone lets it go on.
-/

namespace DurableQueue

/-- The requests of a paced program. -/
inductive Pace (R : Type)
  | act (r : R)
  | sleep (nanos : Nat)
  | wait (timeout : Delay) (policy : WakePolicy)

/-- The type of the answer to a request of a paced program. -/
@[reducible] def Pace.Answer (A : Signature) : Pace A.Request → Type
  | .act r => A.Answer r
  | .sleep _ => Unit
  | .wait _ _ => WaitOutcome

/-- The requests of a signature, sleeping and waiting. -/
@[reducible] def Paced (A : Signature) : Signature := ⟨Pace A.Request, Pace.Answer A⟩

/-- The programs that act, sleep and wait. -/
abbrev PacedProgram (A : Signature) (α : Type) := Program (Paced A) α

namespace Pace

variable {A : Signature}

/-- Make a request. -/
def doing (r : A.Request) : PacedProgram A (A.Answer r) := .ask (S := Paced A) (.act r) .done

/-- Sleep for a number of nanoseconds. -/
def sleeping (nanos : Nat) : PacedProgram A Unit := .ask (S := Paced A) (.sleep nanos) .done

/-- Wait at the gate. -/
def waiting (timeout : Delay) (policy : WakePolicy) : PacedProgram A WaitOutcome :=
  .ask (S := Paced A) (.wait timeout policy) .done

end Pace

/-- The next step of something in progress. -/
inductive Turn (A : Signature) (P : Type)
  /-- It goes on by itself. -/
  | moves (state : P) (gate : Gate)
  /-- It has to be given an answer. -/
  | asks (r : A.Request) (next : A.Answer r → P)
  /-- It goes on when time has passed or the gate has changed. -/
  | blocked
  | over
  /-- It panics, and leaves the gate behind. -/
  | fails (gate : Gate)

/-- A paced program in progress. -/
inductive Activity (A : Signature)
  | ready (p : PacedProgram A Unit)
  | asleep (wake : Nat) (next : PacedProgram A Unit)
  | waiting (w : Wait) (next : WaitOutcome → PacedProgram A Unit)

namespace Activity

variable {A : Signature}

/-- The next step of a program in progress. A wait that the clock cannot show to its end is shown to
have begun, and then panics. -/
def turn (now : Nat) (g : Gate) : Activity A → Turn A (Activity A)
  | .ready (.done ()) => .over
  | .ready (.ask (.act r) next) => .asks r fun a => .ready (next a)
  | .ready (.ask (.sleep nanos) next) => .moves (.asleep (now + nanos) (next ())) g
  | .ready (.ask (.wait timeout policy) next) =>
    match Wait.begin now timeout policy with
    | some w => .moves (.waiting w next) (g.become .waiting)
    | none => .fails (g.become .waiting)
  | .asleep wake next => if wake ≤ now then .moves (.ready next) g else .blocked
  | .waiting w next =>
    match w.check now g with
    | (some outcome, g) => .moves (.ready (next outcome)) g
    | (none, looked) => if looked = g then .blocked else .moves (.waiting w next) looked

/-- The moment at which time alone lets a program go on. -/
def alarm? : Activity A → Option Nat
  | .ready _ => none
  | .asleep wake _ => some wake
  | .waiting w _ => some w.deadline

end Activity

/-- What a worker is doing. -/
inductive Stage (A : Signature)
  /-- Looking at the gate. -/
  | atGate
  /-- Held back by a pause. -/
  | heldBack
  | busy (a : Activity A)
  | stopped

/-- A worker in progress, and the number of iterations it has begun. -/
structure Loop (A : Signature) where
  rounds : Nat := 0
  stage : Stage A := .atGate

namespace Loop

variable {A : Signature}

/-- A worker that has not begun an iteration. -/
def new : Loop A := {}

/-- The next step of a worker with an iteration for each round. -/
def turn (body : Nat → PacedProgram A Unit) (now : Nat) (g : Gate) (l : Loop A) :
    Turn A (Loop A) :=
  match l.stage with
  | .atGate =>
    if g.cancelled then .moves { l with stage := .stopped } (g.become .stopped)
    else if g.paused then .moves { l with stage := .heldBack } (g.become .paused)
    else .moves ⟨l.rounds + 1, .busy (.ready (body (l.rounds + 1)))⟩ (g.become .running)
  | .heldBack =>
    if g.cancelled then .moves { l with stage := .stopped } (g.become .stopped)
    else if g.paused then .blocked
    else .moves { l with stage := .atGate } g
  | .busy a =>
    match a.turn now g with
    | .moves b g => .moves { l with stage := .busy b } g
    | .asks r next => .asks r fun answer => { l with stage := .busy (next answer) }
    | .blocked => .blocked
    | .over => .moves { l with stage := .atGate } g
    | .fails g => .fails g
  | .stopped => .over

/-- The moment at which time alone lets a worker go on. -/
def alarm? (l : Loop A) : Option Nat :=
  match l.stage with
  | .busy a => a.alarm?
  | _ => none

end Loop

end DurableQueue
