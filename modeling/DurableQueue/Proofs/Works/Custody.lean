import DurableQueue.Producer
import DurableQueue.Proofs.Worker.Ledger
import DurableQueue.Worker.Loop
import DurableQueue.Worker.Poller

/-!
# Custody of tasks

Workers, jobs and producers of all queues side by side, each with the one task that it may finish.

* `Deed` lists what they ask for, and `roundAt`, `jobAt` and `producerAt` are their programs at a
  place;
* `Custody` is the task that somebody holds, and whether the consumer has finished it. A row may
  be removed only by who holds its task, after the consumer has finished it (`Custody.Permits`);
* the ledger of an iteration is enough to see that this rule is kept (`iterationAt_obeys`), and so
  do whole rounds, jobs and producers, at every point of their course (`Activity.InCustody`,
  `Loop.InCustody`).
-/

namespace DurableQueue.Works

open Program

variable {π : Type}

/-- A queue on a shard. -/
structure Place where
  shard : ShardId
  location : Location
  deriving DecidableEq

/-- A request of a worker, a job or a producer. -/
inductive Deed (π : Type)
  | clock
  | pollSettings (queue : QueueId)
  | tell (place : Place) (event : ThreadEvent)
  /-- A request of an iteration or a job. -/
  | task (place : Place) (call : TaskCall π)
  /-- A call of a producer. -/
  | offer (place : Place) (call : StoreCall)

/-- The type of the answer to a request. -/
@[reducible] def Deed.Answer : Deed π → Type
  | .clock => Nat
  | .pollSettings _ => PollSettings
  | .tell _ _ => Unit
  | .task _ call => call.Answer
  | .offer _ call => call.Answer

/-- The signature of these requests. -/
@[reducible] def Deeds (π : Type) : Signature := ⟨Deed π, Deed.Answer⟩

/-! ### Programs at a place -/

/-- Answer a request of an iteration. -/
def onTask (place : Place) (c : TaskCall π) : PacedProgram (Deeds π) c.Answer :=
  Pace.doing (A := Deeds π) (.task place c)

/-- Answer a request of a round of a worker. -/
def onRound (place : Place) (run : PacedProgram (Deeds π) RunOutcome) :
    (c : PollCall) → PacedProgram (Deeds π) c.Answer
  | .clock => Pace.doing (A := Deeds π) .clock
  | .pollSettings => Pace.doing (A := Deeds π) (.pollSettings place.location.queue)
  | .notify event => Pace.doing (A := Deeds π) (.tell place event)
  | .runQueue => run
  | .wait timeout policy => Pace.waiting timeout policy

/-- Answer a request of a producer. -/
def onShard (location : Location) (c : ShardCall) : PacedProgram (Deeds π) c.call.Answer :=
  Pace.doing (A := Deeds π) (.offer ⟨c.shard, location⟩ c.call)

/-- An iteration over the queue of a place. -/
def iterationAt (place : Place) (transformer : Transformer π) (mode : ProcessingMode) :
    PacedProgram (Deeds π) RunOutcome :=
  (iteration transformer place.shard mode).interpret (onTask place)

/-- The processing of a task that was handed off. -/
def jobAt (place : Place) (transformer : Transformer π) (record : TaskRecord) :
    PacedProgram (Deeds π) Unit :=
  (Iteration.processDetached transformer place.shard record).interpret (onTask place)

/-- A round of a worker. -/
def roundAt (place : Place) (transformer : Transformer π) (mode : ProcessingMode) :
    PacedProgram (Deeds π) Unit :=
  Poller.poll.interpret (onRound place (iterationAt place transformer mode))

/-- A producer that adds one task to a queue. -/
def producerAt (location : Location) (transformer : Transformer π) (route : Route π)
    (order : Order π) : PacedProgram (Deeds π) Unit :=
  ((produce transformer route order).interpret (onShard location)).bind fun _ => .done ()

/-! ### Custody -/

/-- The task that somebody holds, and whether the consumer has finished it. -/
structure Custody where
  held : Option (Place × TaskRecord) := none
  finished : Bool := false

namespace Custody

/-- Note an answer: a picked task is held, and the consumer may finish it. -/
def note (c : Custody) : (d : Deed π) → d.Answer → Custody
  | .task place (.store (.pick _)), .ok (some record) => ⟨some (place, record), false⟩
  | .task _ (.consume _), outcome => { c with finished := decide (outcome = .result .finish) }
  | _, _ => c

/-- What may be done: only a held task is given to the consumer or handed off, and only a finished
one is removed. -/
def Permits (c : Custody) : Deed π → Prop
  | .task place (.consume task) =>
    ∃ record payload, c.held = some (place, record) ∧ task = .ofRecord place.shard record payload
  | .task place (.store (.delete id)) =>
    c.finished = true ∧ ∃ record, c.held = some (place, record) ∧ id = record.id
  | .task place (.handOff record) => c.held = some (place, record)
  | .offer _ (.delete _) => False
  | _ => True

/-- The ledger of an iteration at a place says no more than the custody. -/
structure Covers (place : Place) (l : Ledger) (c : Custody) : Prop where
  held : ∀ record, l.picked = some record → c.held = some (place, record)
  finished : l.outcome = some (.result .finish) → c.finished = true

end Custody

/-- The monitor of custody; sleeping and waiting change nothing. -/
def custody : Monitor (Paced (Deeds π)) Custody where
  Allows c
    | .act d => c.Permits d
    | _ => True
  after c
    | .act d, a => c.note d a
    | .sleep _, _ => c
    | .wait _ _, _ => c

open Custody

variable {place : Place} {transformer : Transformer π} {mode : ProcessingMode} {c : Custody}
  {l : Ledger}

/-- What the ledger permits is permitted by a custody that covers it. -/
theorem Custody.Covers.permits (h : Covers place l c) {r : TaskCall π}
    (hr : l.Permits transformer place.shard mode r) : c.Permits (.task place r) := by
  cases r with
  | store call =>
    cases call with
    | delete id =>
      obtain ⟨-, -, houtcome, record, hpicked, hid⟩ := hr
      exact ⟨h.finished houtcome, record, h.held record hpicked, hid⟩
    | _ => trivial
  | consume task =>
    obtain ⟨-, ⟨record, payload, hpicked, -, htask⟩, -⟩ := hr
    exact ⟨record, payload, h.held record hpicked, htask⟩
  | handOff record => exact h.held record hr.2.1
  | _ => trivial

/-- A custody goes on to cover a ledger. -/
theorem Custody.Covers.note (h : Covers place l c) {r : TaskCall π}
    (hr : l.Permits transformer place.shard mode r) (a : r.Answer) :
    Covers place (l.note r a) (c.note (.task place r) a) := by
  cases r with
  | store call =>
    cases call with
    | pick failure =>
      obtain ⟨-, -, houtcome⟩ := hr
      match a with
      | .ok (some record) =>
        refine ⟨fun _ hpicked => ?_, fun hfinish => ?_⟩
        · cases hpicked
          rfl
        · -- a pick comes before the consumer
          have hfinish : l.outcome = some (.result .finish) := hfinish
          rw [houtcome] at hfinish
          cases hfinish
      | .ok none => exact ⟨(fun _ hpicked => nomatch hpicked), h.finished⟩
      | .error e => exact ⟨h.held, h.finished⟩
    | begin => cases a <;> exact ⟨h.held, h.finished⟩
    | delete id => cases a <;> exact ⟨h.held, h.finished⟩
    | reenqueue id delay => cases a <;> exact ⟨h.held, h.finished⟩
    | commit => cases a <;> exact ⟨h.held, h.finished⟩
    | enqueue task => exact ⟨h.held, h.finished⟩
    | release => exact ⟨h.held, h.finished⟩
  | consume task =>
    refine ⟨h.held, fun hfinish => ?_⟩
    exact decide_eq_true (Option.some.inj hfinish)
  | reenqueueSettings =>
    refine ⟨fun record hpicked => h.held record ?_, fun hfinish => h.finished ?_⟩
    · exact (Ledger.picked_notePlan a).symm.trans hpicked
    · exact (Ledger.outcome_notePlan a).symm.trans hfinish
  | clock => exact ⟨h.held, h.finished⟩
  | failureSettings => exact ⟨h.held, h.finished⟩
  | notify record event => exact ⟨h.held, h.finished⟩
  | handOff record => exact ⟨h.held, h.finished⟩

theorem onTask_obeys (h : Covers place l c) {r : TaskCall π}
    (hr : l.Permits transformer place.shard mode r) :
    (onTask place r).Obeys custody (fun a c => Covers place (l.note r a) c) c :=
  obeys_ask.2 ⟨h.permits hr, fun a => h.note hr a⟩

/-- An iteration keeps custody, whatever was held before. -/
theorem iterationAt_obeys (place : Place) (transformer : Transformer π) (mode : ProcessingMode)
    (c : Custody) : (iterationAt place transformer mode).Obeys custody (fun _ _ => True) c := by
  have hcovers : Covers place {} c := ⟨(fun _ h => nomatch h), fun h => nomatch h⟩
  have hiteration := iteration_obeys transformer place.shard mode
  refine (hiteration.interpret (n := custody) ?_ hcovers).mono fun _ _ _ => trivial
  exact fun _ _ _ h hr => onTask_obeys h hr

/-- A job keeps the custody of the task that was handed off. -/
theorem jobAt_obeys {record : TaskRecord} (h : c.held = some (place, record)) :
    (jobAt place transformer record).Obeys custody (fun _ _ => True) c := by
  have hholds : Ledger.Holds .useExternalExecutor record
      { begun := 1, picked := some record, secured := true } :=
    ⟨rfl, rfl, rfl, rfl, rfl, rfl, fun _ => rfl⟩
  have hcovers : Covers place { begun := 1, picked := some record, secured := true } c :=
    ⟨(fun _ hpicked => by cases hpicked; exact h), fun h => nomatch h⟩
  have hjob : (Iteration.processDetached transformer place.shard record).Obeys
      (discipline transformer place.shard .useExternalExecutor) _ _ :=
    Iteration.processDetached_obeys (by decide) hholds
  refine (hjob.interpret (n := custody) ?_ hcovers).mono fun _ _ _ => trivial
  exact fun _ _ _ h hr => onTask_obeys h hr

theorem roundAt_obeys (place : Place) (transformer : Transformer π) (mode : ProcessingMode)
    (c : Custody) : (roundAt place transformer mode).Obeys custody (fun _ _ => True) c := by
  refine obeys_interpret (fun r t _ => ?_) trivial
  cases r with
  | runQueue => exact iterationAt_obeys place transformer mode t
  | _ => exact obeys_ask.2 ⟨trivial, fun _ => trivial⟩

/-! ### Producers -/

/-- The calls that add a row in a transaction of its own. -/
def IsOffer : StoreCall → Prop
  | .begin | .enqueue _ | .commit | .release => True
  | .pick _ | .delete _ | .reenqueue _ _ => False

/-- Producers only add rows. -/
def insertions : Monitor ShardCalls Unit := ⟨fun _ r => IsOffer r.call, fun _ _ _ => ()⟩

/-- Producers remove nothing. -/
def offers : Monitor ShardCalls Unit := ⟨fun _ r => ∀ id, r.call ≠ .delete id, fun _ _ _ => ()⟩

theorem insert_inserts (shard : ShardId) (task : NewTask) :
    (Producer.insert shard task).Obeys insertions (fun _ _ => True) () := by
  refine obeys_ask.2 ⟨trivial, fun answer => ?_⟩
  match answer with
  | .error e => trivial
  | .ok () =>
    refine obeys_ask.2 ⟨trivial, fun answer => ?_⟩
    match answer with
    | .error e => exact obeys_ask.2 ⟨trivial, fun _ => trivial⟩
    | .ok id =>
      refine obeys_ask.2 ⟨trivial, fun answer => ?_⟩
      match answer with
      | .error e => trivial
      | .ok () => trivial

theorem produce_inserts (transformer : Transformer π) (route : Route π) (order : Order π) :
    (produce transformer route order).Obeys insertions (fun _ _ => True) () := by
  unfold produce
  cases transformer.fromObject order.payload with
  | error e => trivial
  | ok payload =>
    refine (insert_inserts _ _).bind fun a _ _ => ?_
    match a with
    | .error e => trivial
    | .ok id => trivial

theorem produce_obeys (transformer : Transformer π) (route : Route π) (order : Order π) :
    (produce transformer route order).Obeys offers (fun _ _ => True) () := by
  refine (produce_inserts transformer route order).weaken (fun _ r hr id hdelete => ?_)
    fun _ _ _ => rfl
  have hr : IsOffer r.call := hr
  rw [hdelete] at hr
  exact hr

theorem producerAt_obeys (location : Location) (transformer : Transformer π) (route : Route π)
    (order : Order π) (c : Custody) :
    (producerAt location transformer route order).Obeys custody (fun _ _ => True) c := by
  have hproduce := produce_obeys transformer route order
  refine (hproduce.interpret (n := custody) (R := fun _ _ => True) ?_ trivial).bind
    fun _ _ _ => trivial
  intro _ t ⟨shard, call⟩ _ hr
  refine obeys_ask.2 ⟨?_, fun _ => trivial⟩
  cases call with
  | delete id => exact absurd rfl (hr id)
  | _ => trivial

/-! ### Programs in progress -/

/-- What is left of a program in progress keeps custody. -/
def Activity.InCustody (c : Custody) : Activity (Deeds π) → Prop
  | .ready p => p.Obeys custody (fun _ _ => True) c
  | .asleep _ next => next.Obeys custody (fun _ _ => True) c
  | .waiting _ next => ∀ outcome, (next outcome).Obeys custody (fun _ _ => True) c

/-- What is left of the iteration of a worker keeps custody. -/
def Loop.InCustody (c : Custody) (l : Loop (Deeds π)) : Prop :=
  match l.stage with
  | .busy a => Activity.InCustody c a
  | _ => True

end DurableQueue.Works
