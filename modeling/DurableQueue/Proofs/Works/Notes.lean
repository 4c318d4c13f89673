import DurableQueue.Proofs.Store.History
import DurableQueue.Proofs.Works.Charge

/-!
# Notes about a run

What can be told about a run of the works from outside: what has happened to the rows of each store,
who has which task at hand, which rows were put back as the result of which pick, and which settings
were read on the way.

* `State.told` is what a request tells of the rows of a store, if it takes effect;
* `Notes` are the notes about a run, `Notes.step` those after a move, and `State.notes` those of a
  run;
* `Notes.Timely` says of a row that it is put back as the result of a pick only, and that it is not
  picked again before that;
* `Notes.reflects_step` says that stores reflect what was noted about them.
-/

namespace DurableQueue.Works

variable {π ω υ : Type}

/-- The call of a store that is a request. -/
def Deed.call? : Deed π → Option (Place × StoreCall)
  | .task place (.store c) => some (place, c)
  | .offer place c => some (place, c)
  | _ => none

/-- A call takes effect, though its answer may be lost. -/
def Luck.takesEffect (luck : Luck) : Bool :=
  match luck.fault with
  | some (_, false) => false
  | _ => true

/-- What a request tells of the rows of a store. -/
def State.told (plan : Plan π ω υ) (w : State π ω υ) (actor : Actor) (luck : Luck) (d : Deed π)
    (n : Nat) : List RowEvent :=
  match d.call? with
  | none => []
  | some (place, c) =>
    if luck.takesEffect ∧ n = plan.store place.shard then
      c.told luck.time place.location (w.reach plan actor luck.time place c).1
    else []

/-! ### Notes -/

/-- A row that was put back, and what has happened in its store since the pick of which this is the
result, if it is the result of a pick. -/
structure PutBack where
  store : Nat
  id : Int
  since : Option (List RowEvent)

/-- Notes about a run. -/
structure Notes where
  /-- What has happened to the rows of each store, the latest event first. -/
  log : Nat → List RowEvent := fun _ => []
  charge : Actor → Charge := fun _ => {}
  /-- The number of events in the store up to the last pick of somebody. -/
  stamp : Actor → Nat := fun _ => 0
  /-- These numbers for the jobs that wait. -/
  stamps : List Nat := []
  putBacks : List PutBack := []
  /-- The re-enqueue settings that were read, by queue. -/
  reads : List (QueueId × ReenqueueSettings) := []

namespace Notes

/-- What has happened in a store since somebody has picked. -/
def sinceLastPick (g : Notes) (actor : Actor) (n : Nat) : List RowEvent :=
  (g.log n).take ((g.log n).length - g.stamp actor)

/-- A request that puts a row back. -/
def putBacksOf (g : Notes) (plan : Plan π ω υ) (w : State π ω υ) (actor : Actor) (luck : Luck)
    (d : Deed π) : List PutBack :=
  match d with
  | .task place (.store (.reenqueue id _)) =>
    (w.told plan actor luck d (plan.store place.shard)).map fun _ =>
      ⟨plan.store place.shard, id, some (g.sinceLastPick actor (plan.store place.shard))⟩
  | .offer place (.reenqueue id _) =>
    (w.told plan actor luck d (plan.store place.shard)).map fun _ =>
      ⟨plan.store place.shard, id, none⟩
  | _ => []

/-- Note a request, but for charges. -/
def exchange (g : Notes) (plan : Plan π ω υ) (w : State π ω υ) (actor : Actor) (luck : Luck)
    (d : Deed π) : Notes :=
  let log n := w.told plan actor luck d n ++ g.log n
  { g with
    log
    stamp := match d with
      | .task place (.store (.pick _)) => fun b =>
        if b = actor then (log (plan.store place.shard)).length else g.stamp b
      | _ => g.stamp
    stamps := match d with
      | .task _ (.handOff _) => g.stamps ++ [g.stamp actor]
      | _ => g.stamps
    putBacks := g.putBacksOf plan w actor luck d ++ g.putBacks
    reads := match d with
      | .task place .reenqueueSettings =>
        (place.location.queue, (w.settings place.location.queue).reenqueue) :: g.reads
      | _ => g.reads }

/-- Note that a job begins, but for charges. -/
def begin (g : Notes) (w : State π ω υ) (i : Nat) : Notes :=
  { g with
    stamp := fun b => if b = .errand w.errands.length then g.stamps.getD i 0 else g.stamp b
    stamps := g.stamps.eraseIdx i }

/-- The notes after a move. -/
def step (g : Notes) (plan : Plan π ω υ) (w : State π ω υ) (move : Move π ω) : Notes :=
  let noted := match w.asked plan move with
    | some (actor, luck, d) => g.exchange plan w actor luck d
    | none =>
      match w.begun? move with
      | some (i, _, _) => g.begin w i
      | none => g
  { noted with charge := charges.after plan w g.charge move }

/-- The row of an identifier in a store is put back as the result of a pick only, and it is not
picked again before that. -/
def Timely (g : Notes) (n : Nat) (id : Int) : Prop :=
  ∀ p ∈ g.putBacks, p.store = n → p.id = id →
    ∃ since, p.since = some since ∧ ∀ e ∈ since, e.picks id = false

/-- Whenever the re-enqueue settings of a queue were read, they were these. -/
def Settled (g : Notes) (queue : QueueId) (settings : ReenqueueSettings) : Prop :=
  ∀ read, (queue, read) ∈ g.reads → read = settings

end Notes

/-- The notes about a run. -/
def State.notes (plan : Plan π ω υ) (w : State π ω υ) (moves : List (Move π ω)) : Notes :=
  (moves.foldl (fun (w, g) move => (w.step plan move, g.step plan w move)) (w, ({} : Notes))).2

theorem State.fst_foldl_notes (plan : Plan π ω υ) (w : State π ω υ) (g : Notes)
    (moves : List (Move π ω)) :
    (moves.foldl (fun (w, g) move => (w.step plan move, g.step plan w move)) (w, g)).1
      = w.run plan moves := by
  induction moves generalizing w g with
  | nil => rfl
  | cons move moves ih => exact ih (w.step plan move) (g.step plan w move)

/-- The last move of a run is noted last. -/
theorem State.notes_concat (plan : Plan π ω υ) (w : State π ω υ) (moves : List (Move π ω))
    (move : Move π ω) :
    w.notes plan (moves ++ [move]) = (w.notes plan moves).step plan (w.run plan moves) move := by
  rw [notes, List.foldl_append, ← fst_foldl_notes plan w {} moves]
  rfl

theorem State.run_concat (plan : Plan π ω υ) (w : State π ω υ) (moves : List (Move π ω))
    (move : Move π ω) : w.run plan (moves ++ [move]) = (w.run plan moves).step plan move :=
  List.foldl_append

/-! ### Steps -/

section Steps

variable {plan : Plan π ω υ} {w : State π ω υ} {move : Move π ω} {actor : Actor} {luck : Luck}
  {d : Deed π} {place : Place} {c : StoreCall} {n : Nat}

/-- A move without a request changes stores by clearing them at most. -/
theorem stores_step_of_not_asked (h : w.asked plan move = none) (n : Nat) :
    (w.step plan move).stores n = w.stores n ∨
      (w.step plan move).stores n = (w.stores n).clear := by
  by_cases hclear : ∃ store, move = .clear store
  · obtain ⟨store, rfl⟩ := hclear
    show (if n = store then _ else _) = _ ∨ (if n = store then _ else _) = _
    split
    next hn => exact .inr (by rw [hn])
    next => exact .inl rfl
  by_cases hbegin : ∃ i, move = .beginJob i
  · obtain ⟨i, rfl⟩ := hbegin
    simp only [State.step, State.beginJob]
    split <;> exact .inl rfl
  · obtain ⟨hstores, -⟩ := step_of_not_asked h (fun store heq => hclear ⟨store, heq⟩)
      fun i heq => hbegin ⟨i, heq⟩
    exact .inl (by rw [hstores])

/-- A move without a request changes jobs by beginning one at most. -/
theorem jobs_step_of_not_asked (h : w.asked plan move = none) :
    (w.step plan move).jobs = match w.begun? move with
      | some (i, _, _) => w.jobs.eraseIdx i
      | none => w.jobs := by
  by_cases hbegin : ∃ i, move = .beginJob i
  · obtain ⟨i, rfl⟩ := hbegin
    cases hjob : w.jobs[i]? <;> simp [State.step, State.beginJob, State.begun?, hjob]
  rw [State.begun?_of_ne fun i heq => hbegin ⟨i, heq⟩]
  by_cases hclear : ∃ store, move = .clear store
  · obtain ⟨store, rfl⟩ := hclear
    rfl
  · exact (step_of_not_asked h (fun store heq => hclear ⟨store, heq⟩)
      fun i heq => hbegin ⟨i, heq⟩).2.1

/-! ### Stores and their logs -/

/-- What is left of a call after its answer: its effect, or nothing. -/
theorem call_snd (actor : Actor) (luck : Luck) (place : Place) (c : StoreCall) :
    (w.call plan actor luck place c).2
      = if luck.takesEffect then (w.reach plan actor luck.time place c).2 else w := by
  unfold State.call Luck.takesEffect
  cases luck.fault with
  | none => rfl
  | some fault =>
    obtain ⟨e, reached⟩ := fault
    cases reached <;> rfl

theorem told_of_call (hcall : d.call? = some (place, c)) (n : Nat) :
    w.told plan actor luck d n
      = if luck.takesEffect ∧ n = plan.store place.shard then
          c.told luck.time place.location (w.reach plan actor luck.time place c).1
        else [] := by
  unfold State.told
  rw [hcall]

theorem stores_perform_of_call (hcall : d.call? = some (place, c)) :
    (w.perform plan actor luck d).2.stores = (w.call plan actor luck place c).2.stores := by
  unfold Deed.call? at hcall
  split at hcall
  · cases hcall
    rfl
  · cases hcall
    rfl
  · cases hcall

theorem stores_perform_of_none (hcall : d.call? = none) :
    (w.perform plan actor luck d).2.stores = w.stores := by
  cases d with
  | task place call =>
    cases call with
    | store c => cases hcall
    | _ => rfl
  | offer place c => cases hcall
  | _ => rfl

/-- The stores reflect what a request has told. -/
theorem reflects_perform {schemas : Nat → Schema} {log : Nat → List RowEvent}
    (h : ∀ n, Reflects (schemas n) (log n) (w.stores n)) (actor : Actor) (luck : Luck)
    (d : Deed π) (n : Nat) :
    Reflects (schemas n) (w.told plan actor luck d n ++ log n)
      ((w.perform plan actor luck d).2.stores n) := by
  match hcall : d.call? with
  | none =>
    rw [stores_perform_of_none hcall]
    unfold State.told
    rw [hcall]
    exact h n
  | some (place, c) =>
    rw [stores_perform_of_call hcall, told_of_call hcall, call_snd]
    cases heffect : luck.takesEffect with
    | false => simpa using h n
    | true =>
      by_cases hn : n = plan.store place.shard
      · subst hn
        simpa [State.reach] using
          (h (plan.store place.shard)).answerIn luck.time place.location (w.transactions actor) c
      · simpa [State.reach, hn] using h n

namespace Notes

variable {g : Notes}

theorem step_of_asked (h : w.asked plan move = some (actor, luck, d)) :
    g.step plan w move
      = { g.exchange plan w actor luck d with charge := charges.after plan w g.charge move } := by
  unfold step
  rw [h]

theorem step_of_begun {i : Nat} {record : TaskRecord} (h : w.asked plan move = none)
    (hbegun : w.begun? move = some (i, place, record)) :
    g.step plan w move = { g.begin w i with charge := charges.after plan w g.charge move } := by
  unfold step
  rw [h, hbegun]

/-- A move that makes no request and begins no job leaves nothing to note. -/
theorem step_of_none (h : w.asked plan move = none) (hbegun : w.begun? move = none) :
    g.step plan w move = g := by
  unfold step
  rw [h, hbegun, Watch.after_of_none h hbegun]

theorem log_step_of_not_asked (h : w.asked plan move = none) :
    (g.step plan w move).log = g.log := by
  match hbegun : w.begun? move with
  | none => rw [step_of_none h hbegun]
  | some (i, place, record) => rw [step_of_begun h hbegun]; rfl

/-- The stores reflect their logs after a move. -/
theorem reflects_step {schemas : Nat → Schema}
    (h : ∀ n, Reflects (schemas n) (g.log n) (w.stores n)) (move : Move π ω) (n : Nat) :
    Reflects (schemas n) ((g.step plan w move).log n) ((w.step plan move).stores n) := by
  match hasked : w.asked plan move with
  | some (actor, luck, d) =>
    rw [step_of_asked hasked, (Works.step_of_asked hasked).1]
    exact reflects_perform h actor luck d n
  | none =>
    rw [log_step_of_not_asked hasked]
    rcases stores_step_of_not_asked hasked n with hstore | hstore
    · rw [hstore]
      exact h n
    · rw [hstore]
      exact (h n).keep _

end Notes

end Steps

end DurableQueue.Works
