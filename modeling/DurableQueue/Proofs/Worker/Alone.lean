import DurableQueue.Proofs.Worker.Roster

/-!
# A worker by itself

Others tell a worker what they want by its gate; everything else it does by itself, one turn after
the other.

* `Signal` is what others may tell a worker, and `Worker.Told` is all that others may change of it;
* `Worker.turn` is its next step, with an answer to whatever it may ask, and `Worker.Turned` lists
  all that a turn can do, with the reason for it. What is said about turns is read off there;
* `Worker.Stepped` is one or the other, and the lemmas say what it keeps: the state that a worker
  shows is true of it (`Shown`), and its cancellation brings it to its end (`Closing`).
-/

namespace DurableQueue

variable {A : Signature}

/-! ### Signals -/

/-- What others may tell a worker. -/
inductive Signal
  | pause
  | unpause
  | wake
  | cancel
  deriving DecidableEq, Repr

/-- Tell a gate. -/
def Signal.apply : Signal → Gate → Gate
  | .pause => Gate.pause
  | .unpause => Gate.unpause
  | .wake => Gate.requestWake
  | .cancel => Gate.cancel

/-! ### Iterations in progress -/

/-- An iteration has begun and is not over. -/
def Loop.Busy (l : Loop A) : Prop := ∃ a, l.stage = .busy a

/-- The iteration that has begun has nothing left to do. -/
def Loop.Returned (l : Loop A) : Prop := l.stage = .busy (.ready (.done ()))

/-- The iteration that has begun comes to a wait whose end the clock could not show at some
moment. -/
def Loop.Failing (l : Loop A) : Prop :=
  ∃ now timeout policy next, l.stage = .busy (.ready (.ask (.wait timeout policy) next)) ∧
    Wait.begin now timeout policy = none

theorem Loop.not_busy_atGate (rounds : Nat) : ¬ (⟨rounds, .atGate⟩ : Loop A).Busy := by
  rintro ⟨a, ha⟩
  cases ha

theorem Loop.Failing.busy {l : Loop A} (h : l.Failing) : l.Busy ∧ ¬ l.Returned := by
  obtain ⟨now, timeout, policy, next, hstage, -⟩ := h
  refine ⟨⟨_, hstage⟩, fun hreturned => ?_⟩
  rw [Loop.Returned, hstage] at hreturned
  cases hreturned

theorem Wait.state_check (w : Wait) (now : Nat) (g : Gate) :
    (w.check now g).2.state = g.state ∨ (w.check now g).2.state = .running := by
  unfold Wait.check
  split_ifs
  · exact Or.inr rfl
  · exact Or.inl rfl
  · exact Or.inr rfl
  · exact Or.inl rfl

namespace Activity

/-- In an iteration a worker shows that it waits or that it goes on. -/
theorem state_turn {now : Nat} {g g' : Gate} {a b : Activity A} (h : a.turn now g = .moves b g') :
    g'.state = g.state ∨ g'.state = .waiting ∨ g'.state = .running := by
  unfold turn at h
  split at h
  · cases h
  · cases h
  · cases h; exact Or.inl rfl
  · split at h
    · cases h; exact Or.inr (Or.inl rfl)
    · cases h
  · split at h
    · cases h; exact Or.inl rfl
    · cases h
  next w next =>
    have hw : (w.check now g).2.state = g.state ∨ (w.check now g).2.state = .waiting ∨
        (w.check now g).2.state = .running := (w.state_check now g).imp_right Or.inr
    split at h
    next outcome looked heq =>
      cases h
      rw [heq] at hw
      exact hw
    next looked heq =>
      split at h
      · cases h
      · cases h
        rw [heq] at hw
        exact hw

/-- An iteration is over only when it has nothing left to do. -/
theorem eq_done_of_over {now : Nat} {g : Gate} {a : Activity A} (h : a.turn now g = .over) :
    a = .ready (.done ()) := by
  unfold turn at h
  split at h
  · rfl
  · cases h
  · cases h
  · split at h <;> cases h
  · split at h <;> cases h
  · split at h
    · cases h
    · split at h <;> cases h

/-- A wait ends as soon as its worker is cancelled. -/
theorem turn_of_cancelled {g : Gate} (hg : g.cancelled = true) (now : Nat) (w : Wait)
    (next : WaitOutcome → PacedProgram A Unit) :
    ∃ outcome g', (waiting w next).turn now g = .moves (.ready (next outcome)) g' := by
  by_cases hwake : g.wakeRequested = true ∧ w.policy = .allow
  · exact ⟨.woken, _, by simp only [turn, Wait.check, if_pos hwake]; rfl⟩
  · exact ⟨.cancelled, _, by simp only [turn, Wait.check, if_neg hwake, if_pos hg]; rfl⟩

end Activity

/-- The pause of a worker does not concern an iteration in progress. -/
theorem Activity.turn_withPaused (a : Activity A) (now : Nat) (g : Gate) (paused : Bool) :
    a.turn now { g with paused } =
      match a.turn now g with
      | .moves b g' => .moves b { g' with paused }
      | .fails g' => .fails { g' with paused }
      | t => t := by
  cases a with
  | ready p =>
    cases p with
    | done => rfl
    | ask r next =>
      cases r with
      | wait timeout policy =>
        simp only [turn]
        cases Wait.begin now timeout policy <;> rfl
      | _ => rfl
  | asleep wake next => simp only [turn]; split_ifs <;> rfl
  | waiting w next =>
    obtain ⟨_, cancelled, wakeRequested, _⟩ := g
    cases cancelled <;> cases wakeRequested <;> cases hpolicy : w.policy <;>
      by_cases hover : w.deadline ≤ now <;>
      simp [turn, Wait.check, Gate.become, hpolicy, hover]

/-! ### Turns -/

namespace Worker

/-- The next step of a worker, with an answer to whatever it may ask. -/
def turn (body : Nat → PacedProgram A Unit) (now : Nat) (answer : (r : A.Request) → A.Answer r)
    (w : Worker A) : Worker A :=
  if w.exited then w
  else
    match w.loop.turn body now w.gate with
    | .moves loop gate => { w with loop, gate }
    | .asks r next => { w with loop := next (answer r) }
    | .blocked => w
    | .over => { w with exited := true }
    | .fails gate => { w with gate, exited := true }

/-- Drop a worker wherever it is, if it was aborted. -/
def drop (w : Worker A) : Worker A := { w with exited := w.exited || w.aborted }

/-- What a turn can do. -/
inductive Turned (body : Nat → PacedProgram A Unit) (w : Worker A) : Worker A → Prop
  /-- It was dropped before, or something has to happen first. -/
  | stays (hstays : w.exited = true ∨ w.loop.Busy ∧ ¬ w.loop.Returned ∨
      w.loop.stage = .heldBack ∧ w.gate.cancelled = false) : Turned body w w
  | begins (hexited : w.exited = false) (hstage : w.loop.stage = .atGate)
      (hcancelled : w.gate.cancelled = false) (hpaused : w.gate.paused = false) :
      Turned body w
        { w with
          loop := ⟨w.loop.rounds + 1, .busy (.ready (body (w.loop.rounds + 1)))⟩
          gate := w.gate.become .running }
  | heldBack (hstage : w.loop.stage = .atGate) (hcancelled : w.gate.cancelled = false)
      (hpaused : w.gate.paused = true) (hexited : w.exited = false) :
      Turned body w
        { w with loop := { w.loop with stage := .heldBack }, gate := w.gate.become .paused }
  | freed (hstage : w.loop.stage = .heldBack) (hcancelled : w.gate.cancelled = false)
      (hpaused : w.gate.paused = false) (hexited : w.exited = false) :
      Turned body w { w with loop := { w.loop with stage := .atGate } }
  | stops (hstage : w.loop.stage = .atGate ∨ w.loop.stage = .heldBack)
      (hcancelled : w.gate.cancelled = true) (hexited : w.exited = false) :
      Turned body w
        { w with loop := { w.loop with stage := .stopped }, gate := w.gate.become .stopped }
  /-- A step of the iteration. -/
  | goesOn {a : Activity A} (hstage : w.loop.stage = .busy a) (hgoes : ¬ w.loop.Returned)
      (b : Activity A) {gate : Gate} (horders : gate.orders = w.gate.orders)
      (hstate : gate.state = w.gate.state ∨ gate.state = .waiting ∨ gate.state = .running)
      (hexited : w.exited = false) :
      Turned body w { w with loop := { w.loop with stage := .busy b }, gate }
  | returns (hreturned : w.loop.Returned) (hexited : w.exited = false) :
      Turned body w { w with loop := { w.loop with stage := .atGate } }
  | exits (hstage : w.loop.stage = .stopped) (hexited : w.exited = false) :
      Turned body w { w with exited := true }
  /-- Its iteration panics, and leaves it where it was. -/
  | fails (hfails : w.loop.Failing) (hexited : w.exited = false) :
      Turned body w { w with gate := w.gate.become .waiting, exited := true }

variable {body : Nat → PacedProgram A Unit} {w w' : Worker A}

theorem turned (body : Nat → PacedProgram A Unit) (now : Nat)
    (answer : (r : A.Request) → A.Answer r) (w : Worker A) :
    w.Turned body (w.turn body now answer) := by
  obtain ⟨gate, ⟨rounds, stage⟩, aborted, exited⟩ := w
  unfold turn
  cases exited with
  | true => exact .stays (Or.inl rfl)
  | false =>
    cases stage with
    | atGate =>
      cases hcancelled : gate.cancelled with
      | true => simpa [Loop.turn, hcancelled] using .stops (Or.inl rfl) hcancelled rfl
      | false =>
        cases hpaused : gate.paused with
        | true =>
          simpa [Loop.turn, hcancelled, hpaused] using .heldBack rfl hcancelled hpaused rfl
        | false => simpa [Loop.turn, hcancelled, hpaused] using .begins rfl rfl hcancelled hpaused
    | heldBack =>
      cases hcancelled : gate.cancelled with
      | true => simpa [Loop.turn, hcancelled] using .stops (Or.inr rfl) hcancelled rfl
      | false =>
        cases hpaused : gate.paused with
        | true =>
          simpa [Loop.turn, hcancelled, hpaused] using .stays (Or.inr (Or.inr ⟨rfl, hcancelled⟩))
        | false => simpa [Loop.turn, hcancelled, hpaused] using .freed rfl hcancelled hpaused rfl
    | busy a =>
      have hgoes : a.turn now gate ≠ .over → ¬ (⟨rounds, .busy a⟩ : Loop A).Returned :=
        fun hne h => hne (by cases h; rfl)
      cases hturn : a.turn now gate with
      | moves b looked =>
        simpa [Loop.turn, hturn] using
          .goesOn rfl (hgoes (by simp [hturn])) b (Activity.orders_turn hturn)
            (Activity.state_turn hturn) rfl
      | asks r next =>
        simpa [Loop.turn, hturn] using
          .goesOn rfl (hgoes (by simp [hturn])) (next (answer r)) rfl (Or.inl rfl) rfl
      | blocked =>
        simpa [Loop.turn, hturn] using
          .stays (Or.inr (Or.inl ⟨⟨a, rfl⟩, hgoes (by simp [hturn])⟩))
      | fails looked =>
        obtain ⟨timeout, policy, next, rfl, hbegin, rfl⟩ := Activity.wait_of_fails hturn
        simpa [Loop.turn, hturn] using .fails ⟨now, timeout, policy, next, rfl, hbegin⟩ rfl
      | _ =>
        -- the program of the round is over
        have hreturned : (⟨rounds, .busy a⟩ : Loop A).Returned := by
          rw [Activity.eq_done_of_over hturn]
          rfl
        simpa [Loop.turn, hturn] using .returns hreturned rfl
    | stopped => exact .exits rfl rfl

/-- A turn is something that a worker does by itself, unless nothing happens. -/
theorem turn_eq_or_acts (now : Nat) (answer : (r : A.Request) → A.Answer r) (w : Worker A) :
    w.turn body now answer = w ∨ w.exited = false ∧ w.Acts (w.turn body now answer) := by
  unfold turn
  split
  · exact Or.inl rfl
  next hexited =>
    have hexited : w.exited = false := eq_false_of_ne_true hexited
    split
    next hturn => exact Or.inr ⟨hexited, .moves hturn⟩
    next hturn => exact Or.inr ⟨hexited, .asks hturn _⟩
    · exact Or.inl rfl
    · exact Or.inr ⟨hexited, .exits w⟩
    next hturn => exact Or.inr ⟨hexited, .fails hturn⟩

theorem drop_eq_or_acts (w : Worker A) : w.drop = w ∨ w.exited = false ∧ w.Acts w.drop := by
  obtain ⟨gate, loop, aborted, exited⟩ := w
  cases exited with
  | true => exact Or.inl rfl
  | false =>
    cases aborted with
    | true => exact Or.inr ⟨rfl, .exits _⟩
    | false => exact Or.inl rfl

/-- In an iteration a worker goes on whether it is paused or not. -/
theorem turn_withGate (hbusy : w.loop.Busy) {σ : Signal} (hσ : σ = .pause ∨ σ = .unpause)
    (now : Nat) (answer : (r : A.Request) → A.Answer r) :
    (w.withGate σ.apply).turn body now answer = (w.turn body now answer).withGate σ.apply := by
  obtain ⟨paused, hpaused⟩ : ∃ paused, σ.apply = fun g => { g with paused } := by
    rcases hσ with rfl | rfl
    · exact ⟨true, rfl⟩
    · exact ⟨false, rfl⟩
  obtain ⟨gate, ⟨rounds, stage⟩, aborted, exited⟩ := w
  obtain ⟨a, rfl⟩ : ∃ a, stage = .busy a := hbusy
  cases exited with
  | true => rfl
  | false =>
    have hturn := a.turn_withPaused now gate paused
    simp only [turn, withGate, Loop.turn, hpaused, hturn]
    cases a.turn now gate <;> rfl

/-! ### What others may change -/

/-- All that others may change of a worker. They abort it only when it is to end at once. -/
structure Told (ends : Prop) (w w' : Worker A) : Prop where
  loop : w'.loop = w.loop
  state : w'.gate.state = w.gate.state
  cancelled : w.gate.cancelled = true → w'.gate.cancelled = true
  aborted : w'.aborted = true → w.aborted = true ∨ ends
  stillAborted : w.aborted = true → w'.aborted = true
  exited : w.exited = true → w'.exited = true
  dropped : w'.exited = true → w.exited = true ∨ w'.aborted = true

theorem Told.refl (ends : Prop) (w : Worker A) : w.Told ends w :=
  ⟨rfl, rfl, id, Or.inl, id, id, Or.inl⟩

theorem Told.trans {ends : Prop} {w w' w'' : Worker A} (h : w.Told ends w')
    (h' : w'.Told ends w'') : w.Told ends w'' where
  loop := h'.loop.trans h.loop
  state := h'.state.trans h.state
  cancelled hw := h'.cancelled (h.cancelled hw)
  aborted hw := (h'.aborted hw).elim h.aborted Or.inr
  stillAborted hw := h'.stillAborted (h.stillAborted hw)
  exited hw := h'.exited (h.exited hw)
  dropped hw := (h'.dropped hw).elim (fun hw => (h.dropped hw).imp_right h'.stillAborted) Or.inr

theorem told_signal (w : Worker A) (σ : Signal) (ends : Prop) :
    w.Told ends (w.withGate σ.apply) := by
  cases σ with
  | cancel => exact ⟨rfl, rfl, fun _ => rfl, Or.inl, id, id, Or.inl⟩
  | _ => exact ⟨rfl, rfl, id, Or.inl, id, id, Or.inl⟩

theorem told_abort {ends : Prop} (w : Worker A) (hends : ends) : w.Told ends w.abort :=
  ⟨rfl, rfl, id, fun _ => Or.inr hends, fun _ => rfl, id, Or.inl⟩

theorem told_drop (w : Worker A) (ends : Prop) : w.Told ends w.drop :=
  ⟨rfl, rfl, id, Or.inl, id, fun h => by simp [drop, h], fun h => by simpa [drop] using h⟩

theorem Told.mono {ends ends' : Prop} {w w' : Worker A} (h : w.Told ends w')
    (hends : ends → ends') : w.Told ends' w' :=
  { h with aborted := fun hw => (h.aborted hw).imp_right hends }

/-- A worker that has done nothing yet. -/
structure Fresh (w : Worker A) : Prop where
  loop : w.loop = .new
  state : w.gate.state ≠ .stopped
  aborted : w.aborted = false
  exited : w.exited = false

theorem fresh_new (paused : Bool) : (new paused : Worker A).Fresh :=
  ⟨rfl, by cases paused <;> nofun, rfl, rfl⟩

/-- A step of a worker, by itself or by others. -/
inductive Stepped (body : Nat → PacedProgram A Unit) (ends : Prop) (w w' : Worker A) : Prop
  | turned (h : w.Turned body w')
  | told (h : w.Told ends w')

variable {ends : Prop}

theorem Turned.orders (h : w.Turned body w') : w'.gate.orders = w.gate.orders := by
  cases h with
  | goesOn _ _ _ horders => exact horders
  | _ => rfl

theorem Turned.aborted (h : w.Turned body w') : w'.aborted = w.aborted := by
  cases h <;> rfl

/-- Who has exited takes no turn any more. -/
theorem Turned.eq_of_exited (h : w.Turned body w') (hw : w.exited = true) : w' = w := by
  have hlive : w.exited ≠ false := by simp [hw]
  cases h with
  | stays => rfl
  | _ => exact absurd ‹w.exited = false› hlive

theorem Turned.exited (h : w.Turned body w') (hw' : w'.exited = true) :
    w.exited = true ∨ w'.loop.stage = .stopped ∨ w'.loop.Failing := by
  cases h with
  | exits hstage => exact Or.inr (Or.inl hstage)
  | fails hfails => exact Or.inr (Or.inr hfails)
  | _ => exact Or.inl hw'

theorem Turned.cancelled (h : w.Turned body w') : w'.gate.cancelled = w.gate.cancelled :=
  congrArg Prod.snd h.orders

theorem Stepped.cancelled (h : w.Stepped body ends w') (hw : w.gate.cancelled = true) :
    w'.gate.cancelled = true := by
  cases h with
  | turned h => exact h.cancelled.trans hw
  | told h => exact h.cancelled hw

/-- An iteration begins, or else none does and none is in progress that was not before. -/
theorem Turned.begins_or (h : w.Turned body w') :
    (w.exited = false ∧ w.loop.stage = .atGate ∧ w.gate.orders = (false, false) ∧
      w'.loop = ⟨w.loop.rounds + 1, .busy (.ready (body (w.loop.rounds + 1)))⟩) ∨
    w'.loop.rounds = w.loop.rounds ∧ (w'.loop.Busy → w.loop.Busy) := by
  cases h with
  | begins hexited hstage hcancelled hpaused =>
    exact Or.inl ⟨hexited, hstage, Prod.ext hpaused hcancelled, rfl⟩
  | goesOn hstage => exact Or.inr ⟨rfl, fun _ => ⟨_, hstage⟩⟩
  | stays => exact Or.inr ⟨rfl, id⟩
  | exits => exact Or.inr ⟨rfl, id⟩
  | fails => exact Or.inr ⟨rfl, id⟩
  | _ => exact Or.inr ⟨rfl, nofun⟩

/-- Once it is cancelled, a worker begins no iteration. -/
theorem Stepped.begins_none (h : w.Stepped body ends w') (hw : w.gate.cancelled = true) :
    w'.loop.rounds = w.loop.rounds ∧ (w'.loop.Busy → w.loop.Busy) := by
  cases h with
  | told h => rw [h.loop]; exact ⟨rfl, id⟩
  | turned h =>
    refine h.begins_or.resolve_left fun ⟨_, _, horders, _⟩ => ?_
    have hopen : w.gate.cancelled = false := congrArg Prod.snd horders
    rw [hw] at hopen
    cases hopen

/-! ### The state that a worker shows -/

/-- The state that a worker shows is true of it. -/
structure Shown (w : Worker A) : Prop where
  stopped : w.gate.state = .stopped ↔ w.loop.stage = .stopped
  paused : w.gate.state = .paused → ¬ w.loop.Busy

theorem Fresh.shown (h : w.Fresh) : w.Shown where
  stopped := iff_of_false h.state (by rw [h.loop]; nofun)
  paused _ := by rw [h.loop]; nofun

theorem Shown.turned (hw : w.Shown) (h : w.Turned body w') : w'.Shown := by
  have hrunning : w.loop.stage ≠ .stopped → w.gate.state ≠ .stopped := mt hw.stopped.1
  cases h with
  | stays => exact hw
  | exits => exact ⟨hw.stopped, hw.paused⟩
  | begins => exact ⟨iff_of_false nofun nofun, nofun⟩
  | heldBack => exact ⟨iff_of_false nofun nofun, fun _ => nofun⟩
  | freed hstage => exact ⟨iff_of_false (hrunning (by simp [hstage])) nofun, fun _ => nofun⟩
  | stops => exact ⟨iff_of_true rfl rfl, nofun⟩
  | returns hreturned =>
    have hstage : w.loop.stage ≠ .stopped := by
      rw [hreturned]
      nofun
    exact ⟨iff_of_false (hrunning hstage) nofun, fun _ => nofun⟩
  | goesOn hstage _ b _ hstate =>
    have hstopped : w.gate.state ≠ .stopped := hrunning (by simp [hstage])
    have hpaused : w.gate.state ≠ .paused := fun h => hw.paused h ⟨_, hstage⟩
    refine ⟨iff_of_false ?_ nofun, fun h => ?_⟩
    · rcases hstate with hstate | hstate | hstate <;> simp [hstate, hstopped]
    · rcases hstate with hstate | hstate | hstate <;> simp [hstate, hpaused] at h
  | fails hfails =>
    refine ⟨iff_of_false nofun fun h => ?_, nofun⟩
    obtain ⟨a, ha⟩ := hfails.busy.1
    rw [h] at ha
    cases ha

theorem Shown.stepped (hw : w.Shown) (h : w.Stepped body ends w') : w'.Shown := by
  cases h with
  | turned h => exact hw.turned h
  | told h =>
    refine ⟨?_, ?_⟩
    · rw [h.state, h.loop]
      exact hw.stopped
    · rw [h.state, h.loop]
      exact hw.paused

theorem Turned.stopped (h : w.Turned body w') (hw : w.loop.stage = .stopped) :
    w'.loop.stage = .stopped := by
  cases h with
  | stays => exact hw
  | exits => exact hw
  | stops => rfl
  | goesOn hstage => simp [hw] at hstage
  | begins _ hstage => simp [hw] at hstage
  | heldBack hstage => simp [hw] at hstage
  | freed hstage => simp [hw] at hstage
  | returns hreturned => simp [Loop.Returned, hw] at hreturned
  | fails => exact hw

/-- A worker that has stopped has stopped for good. -/
theorem Stepped.stopped (h : w.Stepped body ends w') (hw : w.loop.stage = .stopped) :
    w'.loop.stage = .stopped := by
  cases h with
  | turned h => exact h.stopped hw
  | told h => exact h.loop ▸ hw

/-! ### The end of a worker -/

/-- A worker that is to end, and needs at most `n` turns for it. -/
inductive Closing (w : Worker A) : Nat → Prop
  | returned {n : Nat} (h : w.loop.Returned) : Closing w (n + 2)
  | idle {n : Nat} (h : w.loop.stage = .atGate ∨ w.loop.stage = .heldBack) : Closing w (n + 1)
  | stopped {n : Nat} (h : w.loop.stage = .stopped) : Closing w n
  /-- It was dropped. -/
  | exited {n : Nat} (h : w.exited = true) (hidle : ¬ w.loop.Failing) : Closing w n

theorem closing_of (h : ¬ w.loop.Busy ∨ w.loop.Returned) : w.Closing 2 := by
  rcases h with h | h
  · cases hstage : w.loop.stage with
    | atGate => exact .idle (Or.inl hstage)
    | heldBack => exact .idle (Or.inr hstage)
    | busy a => exact absurd ⟨a, hstage⟩ h
    | stopped => exact .stopped hstage
  · exact .returned h

/-- Each turn brings a worker that was cancelled closer to its end. -/
theorem Closing.turned {n : Nat} (hw : w.Closing n) (hcancelled : w.gate.cancelled = true)
    (h : w.Turned body w') : w'.Closing (n - 1) := by
  have hopen : w.gate.cancelled ≠ false := by simp [hcancelled]
  have hidle : w.loop.stage = .atGate ∨ w.loop.stage = .heldBack → ¬ w.loop.Busy := by
    rintro (h | h) <;> simp [Loop.Busy, h]
  cases hw with
  | stopped hstopped => exact .stopped (h.stopped hstopped)
  | exited hexited hidle =>
    rw [h.eq_of_exited hexited]
    exact .exited hexited hidle
  | returned hreturned =>
    cases h with
    | returns => exact .idle (Or.inl rfl)
    | stays hstays =>
      rcases hstays with hexited | ⟨-, hgoes⟩ | ⟨-, h⟩
      · exact .exited hexited fun hfails => hfails.busy.2 hreturned
      · exact absurd hreturned hgoes
      · exact absurd h hopen
    | goesOn _ hgoes => exact absurd hreturned hgoes
    | begins _ hstage => exact absurd ⟨_, hreturned⟩ (hidle (Or.inl hstage))
    | heldBack hstage => exact absurd ⟨_, hreturned⟩ (hidle (Or.inl hstage))
    | freed hstage => exact absurd ⟨_, hreturned⟩ (hidle (Or.inr hstage))
    | stops hstage => exact absurd ⟨_, hreturned⟩ (hidle hstage)
    | exits hstage => exact .stopped hstage
    | fails hfails => exact absurd hreturned hfails.busy.2
  | idle hstage =>
    cases h with
    | stops => exact .stopped rfl
    | exits hstage => exact .stopped hstage
    | begins _ _ h => exact absurd h hopen
    | heldBack _ h => exact absurd h hopen
    | freed _ h => exact absurd h hopen
    | goesOn hbusy => exact absurd ⟨_, hbusy⟩ (hidle hstage)
    | returns hreturned => exact absurd ⟨_, hreturned⟩ (hidle hstage)
    | fails hfails => exact absurd hfails.busy.1 (hidle hstage)
    | stays hstays =>
      rcases hstays with hexited | ⟨hbusy, -⟩ | ⟨-, h⟩
      · exact .exited hexited fun hfails => hidle hstage hfails.busy.1
      · exact absurd hbusy (hidle hstage)
      · exact absurd h hopen

theorem Closing.told {n : Nat} (hw : w.Closing n) (h : w.Told ends w') : w'.Closing n := by
  cases hw with
  | returned hreturned => exact .returned (by rw [Loop.Returned, h.loop]; exact hreturned)
  | idle hidle => exact .idle (by rw [h.loop]; exact hidle)
  | stopped hstopped => exact .stopped (by rw [h.loop]; exact hstopped)
  | exited hexited hidle => exact .exited (h.exited hexited) (by rw [h.loop]; exact hidle)

end Worker

end DurableQueue
