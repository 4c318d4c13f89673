import DurableQueue.Proofs.Worker.Alone
import DurableQueue.Worker.Poller

/-!
# The rounds of a worker

One worker in the course of time: its queue is run again and again, and what comes of that, how
long it takes and what the worker is told meanwhile is left open.

* `Duties` lists what a round asks of its surroundings. A run of the queue is begun by one request
  and ended by another, so that anything may happen in between;
* `round` is the program of a round, and `Phase` lists the places that it comes to;
* `Tour` is a worker on its rounds, with the log of what it has done. Nothing reads the log;
* `Tour.step` is a move, and `Tour.run` several.
-/

namespace DurableQueue

/-! ### The program of a round -/

/-- A request of a round to its surroundings. -/
inductive Duty
  /-- The time that has passed, in nanoseconds. -/
  | clock
  | pollSettings
  | tell (event : ThreadEvent)
  /-- Begin to run the queue. -/
  | enter
  /-- The outcome, when the queue was run. -/
  | leave

/-- The type of the answer to a request. -/
@[reducible] def Duty.Answer : Duty → Type
  | .clock => Nat
  | .pollSettings => PollSettings
  | .tell _ => Unit
  | .enter => Unit
  | .leave => RunOutcome

/-- The signature of these requests. -/
@[reducible] def Duties : Signature := ⟨Duty, Duty.Answer⟩

/-- Answer a request of a round. -/
def onDuty : (c : PollCall) → PacedProgram Duties c.Answer
  | .clock => Pace.doing (A := Duties) .clock
  | .pollSettings => Pace.doing (A := Duties) .pollSettings
  | .notify event => Pace.doing (A := Duties) (.tell event)
  | .runQueue => do
    Pace.doing (A := Duties) .enter
    Pace.doing (A := Duties) .leave
  | .wait timeout policy => Pace.waiting timeout policy

/-- A round of a worker. -/
def round : PacedProgram Duties Unit := Poller.poll.interpret onDuty

/-! ### Phases -/

/-- What is noted of a worker on its rounds. -/
inductive Note
  /-- Somebody has asked it to wake up. -/
  | woken
  | told (event : ThreadEvent)
  /-- A run of the queue has begun. -/
  | entered
  /-- A run of the queue has ended, while these settings were live. -/
  | left (outcome : RunOutcome) (settings : PollSettings)
  /-- A pause was chosen, by these settings. -/
  | chose (settings : PollSettings)
  /-- A wait has ended. -/
  | waited (outcome : WaitOutcome)

/-- What comes of a round: the outcome of the run of the queue and the settings that were live at
its end, the time that is reported for it, the settings by which the pause was chosen, and the
outcome of the wait. -/
structure Visit where
  outcome : RunOutcome
  settings : PollSettings
  took : Delay
  chosen : PollSettings
  ended : WaitOutcome

/-- The notes of a whole round. -/
def Visit.notes (v : Visit) : List Note :=
  [.told .started, .entered, .left v.outcome v.settings, .told (Poller.event v.took v.outcome),
   .chose v.chosen, .waited v.ended, .told .finished]

/-- Where a round is. -/
inductive Phase
  | announcing
  | timing
  | entering (started : Nat)
  /-- The queue is run. -/
  | inside (started : Nat)
  | measuring (started : Nat) (outcome : RunOutcome) (settings : PollSettings)
  | reporting (took : Delay) (outcome : RunOutcome) (settings : PollSettings)
  | choosing (took : Delay) (outcome : RunOutcome) (settings : PollSettings)
  | resting (took : Delay) (outcome : RunOutcome) (settings chosen : PollSettings)
  | waiting (took : Delay) (outcome : RunOutcome) (settings chosen : PollSettings) (wait : Wait)
  | closing (visit : Visit)
  | finished (visit : Visit)

namespace Phase

/-! What is left to do of a round, latest phase first. -/

def close : PacedProgram Duties Unit := .ask (.act (.tell .finished)) .done

def rest (outcome : RunOutcome) (settings : PollSettings) : PacedProgram Duties Unit :=
  .ask (.wait (Poller.pause settings outcome).1 (Poller.pause settings outcome).2) fun _ => close

def choose (outcome : RunOutcome) : PacedProgram Duties Unit :=
  .ask (.act .pollSettings) (rest outcome)

def report (took : Delay) (outcome : RunOutcome) : PacedProgram Duties Unit :=
  .ask (.act (.tell (Poller.event took outcome))) fun _ => choose outcome

def measure (started : Nat) (outcome : RunOutcome) : PacedProgram Duties Unit :=
  .ask (.act .clock) fun ended => report (.clamp (ended - started)) outcome

def run (started : Nat) : PacedProgram Duties Unit := .ask (.act .leave) (measure started)

def enter (started : Nat) : PacedProgram Duties Unit := .ask (.act .enter) fun _ => run started

def time : PacedProgram Duties Unit := .ask (.act .clock) enter

theorem round_eq : round = .ask (.act (.tell .started)) fun _ => time := rfl

/-- What is in progress when a round has come to a phase. -/
def activity : Phase → Activity Duties
  | .announcing => .ready round
  | .timing => .ready time
  | .entering started => .ready (enter started)
  | .inside started => .ready (run started)
  | .measuring started outcome _ => .ready (measure started outcome)
  | .reporting took outcome _ => .ready (report took outcome)
  | .choosing _ outcome _ => .ready (choose outcome)
  | .resting _ outcome _ chosen => .ready (rest outcome chosen)
  | .waiting _ _ _ _ wait => .waiting wait fun _ => close
  | .closing _ => .ready close
  | .finished _ => .ready (.done ())

/-- The notes of a round that has come to a phase. -/
def notes : Phase → List Note
  | .announcing => []
  | .timing => [.told .started]
  | .entering _ => [.told .started]
  | .inside _ => [.told .started, .entered]
  | .measuring _ outcome settings => [.told .started, .entered, .left outcome settings]
  | .reporting _ outcome settings => [.told .started, .entered, .left outcome settings]
  | .choosing took outcome settings =>
    [.told .started, .entered, .left outcome settings, .told (Poller.event took outcome)]
  | .resting took outcome settings chosen
  | .waiting took outcome settings chosen _ =>
    [.told .started, .entered, .left outcome settings, .told (Poller.event took outcome),
     .chose chosen]
  | .closing visit => visit.notes.dropLast
  | .finished visit => visit.notes

end Phase

/-! ### Tours -/

/-- What was done and told, and when, latest first. -/
abbrev Log := List (Nat × Note)

/-- A worker on its rounds, with the live settings. -/
structure Tour where
  now : Nat
  worker : Worker Duties
  poll : PollSettings
  log : Log := []

namespace Tour

/-- A worker that was just spawned. -/
def new (now : Nat) (paused : Bool) (poll : PollSettings) : Tour := ⟨now, .new paused, poll, []⟩

/-- Answer a request; `outcome` is that of the run of the queue. -/
def answer (t : Tour) (outcome : RunOutcome) : (d : Duty) → d.Answer
  | .clock => t.now
  | .pollSettings => t.poll
  | .tell _ => ()
  | .enter => ()
  | .leave => outcome

/-- What is noted of a request. -/
def noteOf (t : Tour) (outcome : RunOutcome) : Duty → Option Note
  | .clock => none
  | .pollSettings => some (.chose t.poll)
  | .tell event => some (.told event)
  | .enter => some .entered
  | .leave => some (.left outcome t.poll)

/-- What is noted of the next step. -/
def note? (t : Tour) (outcome : RunOutcome) : Option Note :=
  match t.worker.loop.stage with
  | .busy (.ready (.ask (.act d) _)) => t.noteOf outcome d
  | .busy (.waiting wait _) => (wait.check t.now t.worker.gate).1.map .waited
  | _ => none

/-- A move of a tour. -/
inductive Move
  | pass (nanos : Nat)
  | signal (σ : Signal)
  /-- An update of the settings. -/
  | setPoll (poll : PollSettings)
  /-- A step of the worker. -/
  | turn (outcome : RunOutcome)
  /-- The worker is dropped where it is. -/
  | drop

/-- One step of the worker. -/
def turn (t : Tour) (outcome : RunOutcome) : Tour :=
  if t.worker.exited then t
  else
    { t with
      worker := t.worker.turn (fun _ => round) t.now (t.answer outcome)
      log := ((t.note? outcome).map (t.now, ·)).toList ++ t.log }

/-- Tell the worker something. -/
def signal (t : Tour) (σ : Signal) : Tour :=
  { t with
    worker := t.worker.withGate σ.apply
    log := if σ = .wake then (t.now, .woken) :: t.log else t.log }

/-- Make a move. -/
def step (t : Tour) : Move → Tour
  | .pass nanos => { t with now := t.now + nanos }
  | .signal σ => t.signal σ
  | .setPoll poll => { t with poll }
  | .turn outcome => t.turn outcome
  | .drop => { t with worker := { t.worker with exited := true } }

/-- Make several moves. -/
def run (t : Tour) (moves : List Move) : Tour := moves.foldl step t

end Tour

end DurableQueue
