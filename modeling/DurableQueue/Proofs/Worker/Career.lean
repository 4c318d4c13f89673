import DurableQueue.Proofs.Worker.Alone
import Mathlib.Data.List.Induction

/-!
# The career of a worker

A worker from its first move to its last, among the moves of others. Whether it is alone or one of
a pool makes a difference only for what the moves are.

* `Career` gives the worker after any moves, and which of them are turns of its own;
* `Career.Tended` says what each single move does to it;
* `Career.Gated` is what follows for whole careers: a pause and a cancellation hold back every
  iteration that has not begun, and nothing holds back an iteration that has.
-/

namespace DurableQueue

variable {A : Signature} {M : Type}

/-- A worker among the moves of a course, which are listed oldest first. -/
structure Career (A : Signature) (M : Type) where
  /-- The worker after some moves, once it was spawned. -/
  worker : List M → Option (Worker A)
  /-- Whether it is paused, or is to be paused once it was spawned. -/
  isPaused : List M → Bool
  /-- Whether it may be dropped wherever it is. -/
  isEnded : List M → Bool
  pauses : M → Bool
  unpauses : M → Bool
  /-- Whether a move that comes after some others is to cancel the worker. -/
  cancels : List M → M → Bool
  /-- The turns of the worker. -/
  isTurn : M → Bool

namespace Career

/-- What the moves of a career do. -/
structure Tended (c : Career A M) (body : Nat → PacedProgram A Unit) : Prop where
  first : ∀ {w}, c.worker [] = some w → w.Fresh
  spawned : ∀ {ms m w}, c.worker ms = none → c.worker (ms ++ [m]) = some w → w.Fresh
  turned : ∀ {ms m w}, c.worker ms = some w → c.isTurn m = true →
    ∃ now answer, c.worker (ms ++ [m]) = some (w.turn body now answer)
  told : ∀ {ms m w}, c.worker ms = some w → c.isTurn m = false →
    ∃ w', c.worker (ms ++ [m]) = some w' ∧ w.Told (c.isEnded (ms ++ [m]) = true) w'
  pausing : ∀ {ms m}, c.pauses m = true → c.isPaused (ms ++ [m]) = true
  /-- Only a move that is meant to end a pause does so. -/
  paused : ∀ {ms m}, c.isPaused ms = true → c.unpauses m = false → c.isPaused (ms ++ [m]) = true
  /-- Whoever is to be paused is, or else has to end. -/
  obeyed : ∀ {ms w}, c.worker ms = some w → c.isPaused ms = true → w.exited = false →
    w.gate.paused = true ∨ w.gate.cancelled = true
  cancelling : ∀ {ms m w}, c.cancels ms m = true → c.worker (ms ++ [m]) = some w →
    w.gate.cancelled = true
  ended : ∀ {ms m}, c.isEnded ms = true → c.isEnded (ms ++ [m]) = true

/-- **A pause and a cancellation hold back every iteration that has not begun.** -/
structure Gated (c : Career A M) (body : Nat → PacedProgram A Unit) : Prop where
  stays : ∀ ms later w, c.worker ms = some w → ∃ w', c.worker (ms ++ later) = some w'
  /-- An iteration begins only in a turn of its worker, which is then at the gate and neither
  cancelled nor paused. -/
  begins : ∀ ms m w w', c.worker ms = some w → c.worker (ms ++ [m]) = some w' →
    w'.loop.rounds ≠ w.loop.rounds ∨ ¬ w.loop.Busy ∧ w'.loop.Busy →
    c.isTurn m = true ∧ ¬ w.loop.Busy ∧ w.gate.cancelled = false ∧ w.gate.paused = false ∧
      c.isPaused ms = false ∧
      w'.loop = ⟨w.loop.rounds + 1, .busy (.ready (body (w.loop.rounds + 1)))⟩
  /-- Who has just been spawned has begun no iteration. -/
  spawned : ∀ ms m w, c.worker ms = none → c.worker (ms ++ [m]) = some w → w.loop = .new
  /-- Nobody else changes what a worker is doing. -/
  undisturbed : ∀ ms m w w', c.worker ms = some w → c.worker (ms ++ [m]) = some w' →
    c.isTurn m = false → w'.loop = w.loop
  pausing : ∀ ms m, c.pauses m = true → c.isPaused (ms ++ [m]) = true
  /-- From a pause to its end no iteration begins. So at most the one in progress ends. -/
  held : ∀ ms later, c.isPaused ms = true → (∀ m ∈ later, c.unpauses m = false) →
    ∀ w', c.worker (ms ++ later) = some w' →
      match c.worker ms with
      | some w => w'.loop.rounds = w.loop.rounds ∧ (w'.loop.Busy → w.loop.Busy)
      | none => w'.loop.rounds = 0 ∧ ¬ w'.loop.Busy
  cancelling : ∀ ms m w, c.cancels ms m = true → c.worker (ms ++ [m]) = some w →
    w.gate.cancelled = true
  /-- From a cancellation on no iteration begins. -/
  cancelled : ∀ ms later w w', c.worker ms = some w → c.worker (ms ++ later) = some w' →
    w.gate.cancelled = true →
    w'.gate.cancelled = true ∧ w'.loop.rounds = w.loop.rounds ∧ (w'.loop.Busy → w.loop.Busy)
  /-- A wait of a cancelled worker ends in its next turn. -/
  interrupted : ∀ ms m w w', c.worker ms = some w → c.worker (ms ++ [m]) = some w' →
    c.isTurn m = true → w.exited = false → w.gate.cancelled = true →
    ∀ wait next, w.loop.stage = .busy (.waiting wait next) →
      ∃ outcome, w'.loop.stage = .busy (.ready (next outcome))
  /-- A cancelled worker that is in no iteration, or in one that has nothing left to do, stops. Two
  turns are enough for it, be it paused or not. -/
  returns : ∀ ms later w w', c.worker ms = some w → c.worker (ms ++ later) = some w' →
    w.gate.cancelled = true → ¬ w.loop.Busy ∨ w.loop.Returned → 2 ≤ later.countP c.isTurn →
    w'.loop.stage = .stopped ∨ w'.exited = true ∧ c.isEnded (ms ++ later) = true
  /-- The state that a worker shows is true of it. -/
  shown : ∀ ms w, c.worker ms = some w → w.Shown
  /-- A worker that has stopped has stopped for good. -/
  stopped : ∀ ms later w w', c.worker ms = some w → c.worker (ms ++ later) = some w' →
    w.loop.stage = .stopped → w'.loop.stage = .stopped
  /-- A worker comes to its end only by stopping, unless it is dropped, or panics in a wait whose
  end the clock cannot show. -/
  exited : ∀ ms w, c.worker ms = some w → w.exited = true →
    w.loop.stage = .stopped ∨ w.loop.Failing ∨ c.isEnded ms = true

namespace Tended

variable {c : Career A M} {body : Nat → PacedProgram A Unit} {ms later : List M} {m : M}
  {w w' : Worker A}

/-! ### One move -/

theorem stepped (h : c.Tended body) (hw : c.worker ms = some w) (m : M) :
    ∃ w', c.worker (ms ++ [m]) = some w' ∧
      w.Stepped body (c.isEnded (ms ++ [m]) = true) w' := by
  cases hm : c.isTurn m with
  | true =>
    obtain ⟨now, answer, hw'⟩ := h.turned hw hm
    exact ⟨_, hw', .turned (w.turned body now answer)⟩
  | false =>
    obtain ⟨w', hw', htold⟩ := h.told hw hm
    exact ⟨w', hw', .told htold⟩

theorem stepped_of (h : c.Tended body) (hw : c.worker ms = some w)
    (hw' : c.worker (ms ++ [m]) = some w') :
    w.Stepped body (c.isEnded (ms ++ [m]) = true) w' := by
  obtain ⟨v, hv, hstep⟩ := h.stepped hw m
  rw [hw'] at hv
  cases hv
  exact hstep

theorem turned_of (h : c.Tended body) (hw : c.worker ms = some w)
    (hw' : c.worker (ms ++ [m]) = some w') (hm : c.isTurn m = true) :
    ∃ now answer, w' = w.turn body now answer := by
  obtain ⟨now, answer, hv⟩ := h.turned hw hm
  rw [hw'] at hv
  cases hv
  exact ⟨now, answer, rfl⟩

theorem undisturbed (h : c.Tended body) (hw : c.worker ms = some w)
    (hw' : c.worker (ms ++ [m]) = some w') (hm : c.isTurn m = false) : w'.loop = w.loop := by
  obtain ⟨v, hv, htold⟩ := h.told hw hm
  rw [hw'] at hv
  cases hv
  exact htold.loop

/-- An iteration begins, or else none does and none is in progress that was not before. -/
theorem begins_or (h : c.Tended body) (hw : c.worker ms = some w)
    (hw' : c.worker (ms ++ [m]) = some w') :
    (c.isTurn m = true ∧ ¬ w.loop.Busy ∧ w.gate.cancelled = false ∧ w.gate.paused = false ∧
      c.isPaused ms = false ∧
      w'.loop = ⟨w.loop.rounds + 1, .busy (.ready (body (w.loop.rounds + 1)))⟩) ∨
    w'.loop.rounds = w.loop.rounds ∧ (w'.loop.Busy → w.loop.Busy) := by
  cases hm : c.isTurn m with
  | false =>
    rw [h.undisturbed hw hw' hm]
    exact Or.inr ⟨rfl, id⟩
  | true =>
    obtain ⟨now, answer, rfl⟩ := h.turned_of hw hw' hm
    refine (w.turned body now answer).begins_or.imp_left fun ⟨hexited, hstage, horders, hloop⟩ => ?_
    have hpaused : w.gate.paused = false := congrArg Prod.fst horders
    have hcancelled : w.gate.cancelled = false := congrArg Prod.snd horders
    have hopen : c.isPaused ms = false := by
      refine eq_false_of_ne_true fun hpause => ?_
      rcases h.obeyed hw hpause hexited with hobeyed | hobeyed
      · rw [hpaused] at hobeyed
        cases hobeyed
      · rw [hcancelled] at hobeyed
        cases hobeyed
    have hidle : ¬ w.loop.Busy := by
      rintro ⟨a, ha⟩
      rw [hstage] at ha
      cases ha
    exact ⟨rfl, hidle, hcancelled, hpaused, hopen, hloop⟩

/-! ### Whole careers -/

/-- What holds of a worker that has done nothing yet, and is kept by every step, always holds. -/
theorem always (h : c.Tended body) {P : List M → Worker A → Prop}
    (hfresh : ∀ {ms w}, w.Fresh → P ms w)
    (hstep : ∀ {ms m w w'}, P ms w → w.Stepped body (c.isEnded (ms ++ [m]) = true) w' →
      (c.isEnded ms = true → c.isEnded (ms ++ [m]) = true) → P (ms ++ [m]) w') (ms : List M) :
    ∀ w, c.worker ms = some w → P ms w := by
  induction ms using List.reverseRecOn with
  | nil => exact fun w hw => hfresh (h.first hw)
  | append_singleton ms m ih =>
    intro w' hw'
    cases hw : c.worker ms with
    | none => exact hfresh (h.spawned hw hw')
    | some w => exact hstep (ih w hw) (h.stepped_of hw hw') h.ended

/-- A worker that was spawned stays there, and keeps what every step keeps. -/
theorem lasts (h : c.Tended body) {P : Worker A → Prop}
    (hP : ∀ {ends w w'}, Worker.Stepped body ends w w' → P w → P w') (hw : c.worker ms = some w)
    (hPw : P w) (later : List M) : ∃ w', c.worker (ms ++ later) = some w' ∧ P w' := by
  induction later using List.reverseRecOn with
  | nil => exact ⟨w, by rwa [List.append_nil], hPw⟩
  | append_singleton later m ih =>
    obtain ⟨v, hv, hPv⟩ := ih
    obtain ⟨w', hw', hstep⟩ := h.stepped hv m
    exact ⟨w', by rwa [← List.append_assoc], hP hstep hPv⟩

theorem lasts_of (h : c.Tended body) {P : Worker A → Prop}
    (hP : ∀ {ends w w'}, Worker.Stepped body ends w w' → P w → P w') (hw : c.worker ms = some w)
    (hPw : P w) (hw' : c.worker (ms ++ later) = some w') : P w' := by
  obtain ⟨v, hv, hPv⟩ := h.lasts hP hw hPw later
  rw [hw'] at hv
  cases hv
  exact hPv

/-- Only who is aborted is dropped, and only who may be dropped is aborted. -/
theorem exited (h : c.Tended body) (hw : c.worker ms = some w) (hexited : w.exited = true) :
    w.loop.stage = .stopped ∨ w.loop.Failing ∨ c.isEnded ms = true := by
  refine (h.always (P := fun ms w => (w.aborted = true → c.isEnded ms = true) ∧
    (w.exited = true → w.loop.stage = .stopped ∨ w.loop.Failing ∨ c.isEnded ms = true)) ?_ ?_
    ms w hw).2 hexited
  · intro ms w hw
    exact ⟨fun h => by simp [hw.aborted] at h, fun h => by simp [hw.exited] at h⟩
  · rintro ms m w w' ⟨haborted, hexited⟩ hstep hended
    have haborted' : w'.aborted = true → c.isEnded (ms ++ [m]) = true := by
      intro hw'
      cases hstep with
      | turned h => exact hended (haborted (h.aborted ▸ hw'))
      | told h => exact (h.aborted hw').elim (fun h => hended (haborted h)) id
    refine ⟨haborted', fun hw' => ?_⟩
    cases hstep with
    | turned h =>
      rcases h.exited hw' with hw | hstopped | hfails
      · rw [h.eq_of_exited hw]
        exact (hexited hw).imp_right (Or.imp_right hended)
      · exact Or.inl hstopped
      · exact Or.inr (Or.inl hfails)
    | told h =>
      rw [h.loop]
      rcases h.dropped hw' with hw | hdropped
      · exact (hexited hw).imp_right (Or.imp_right hended)
      · exact Or.inr (Or.inr (haborted' hdropped))

/-- While it is paused, a worker begins no iteration. -/
theorem held (h : c.Tended body) (hpaused : c.isPaused ms = true)
    (hlater : ∀ m ∈ later, c.unpauses m = false) :
    c.isPaused (ms ++ later) = true ∧ ∀ w', c.worker (ms ++ later) = some w' →
      match c.worker ms with
      | some w => w'.loop.rounds = w.loop.rounds ∧ (w'.loop.Busy → w.loop.Busy)
      | none => w'.loop.rounds = 0 ∧ ¬ w'.loop.Busy := by
  induction later using List.reverseRecOn with
  | nil =>
    rw [List.append_nil]
    refine ⟨hpaused, fun w hw => ?_⟩
    rw [hw]
    exact ⟨rfl, id⟩
  | append_singleton later m ih =>
    obtain ⟨hpaused, hbefore⟩ := ih fun m hm => hlater m (List.mem_append_left _ hm)
    rw [← List.append_assoc]
    refine ⟨h.paused hpaused (hlater m (by simp)), fun w' hw' => ?_⟩
    cases hv : c.worker (ms ++ later) with
    | some v =>
      have hsame := (h.begins_or hv hw').resolve_left fun hbegins =>
        absurd hpaused (by simp [hbegins.2.2.2.2.1])
      have hv := hbefore v hv
      generalize c.worker ms = first at hv ⊢
      cases first with
      | some w => exact ⟨hsame.1.trans hv.1, fun hbusy => hv.2 (hsame.2 hbusy)⟩
      | none => exact ⟨hsame.1.trans hv.1, fun hbusy => hv.2 (hsame.2 hbusy)⟩
    | none =>
      have hnone : c.worker ms = none := by
        refine Option.eq_none_iff_forall_ne_some.2 fun w hw => ?_
        obtain ⟨v, hv', -⟩ := h.lasts (P := fun _ => True) (fun _ => id) hw trivial later
        rw [hv] at hv'
        cases hv'
      have hloop := (h.spawned hv hw').loop
      rw [hnone, hloop]
      exact ⟨rfl, nofun⟩

/-- A cancelled worker that is in no iteration, or in one that has nothing left to do, comes to
its end. -/
theorem closing (h : c.Tended body) (hw : c.worker ms = some w)
    (hcancelled : w.gate.cancelled = true) (hidle : ¬ w.loop.Busy ∨ w.loop.Returned)
    (later : List M) :
    ∃ w', c.worker (ms ++ later) = some w' ∧ w'.gate.cancelled = true ∧
      w'.Closing (2 - later.countP c.isTurn) := by
  induction later using List.reverseRecOn with
  | nil => exact ⟨w, by rwa [List.append_nil], hcancelled, Worker.closing_of hidle⟩
  | append_singleton later m ih =>
    obtain ⟨v, hv, hvcancelled, hclosing⟩ := ih
    rw [← List.append_assoc, List.countP_append, List.countP_singleton, ← Nat.sub_sub]
    cases hm : c.isTurn m with
    | true =>
      obtain ⟨now, answer, hw'⟩ := h.turned hv hm
      have hturned := v.turned body now answer
      exact ⟨_, hw', hturned.cancelled.trans hvcancelled, hclosing.turned hvcancelled hturned⟩
    | false =>
      obtain ⟨w', hw', htold⟩ := h.told hv hm
      exact ⟨w', hw', htold.cancelled hvcancelled, hclosing.told htold⟩

theorem gated (h : c.Tended body) : c.Gated body where
  stays ms later w hw := by
    obtain ⟨w', hw', -⟩ := h.lasts (P := fun _ => True) (fun _ => id) hw trivial later
    exact ⟨w', hw'⟩
  begins ms m w w' hw hw' hbegins := by
    refine (h.begins_or hw hw').resolve_right fun ⟨hrounds, hbusy⟩ => ?_
    exact hbegins.elim (fun hne => hne hrounds) fun ⟨hidle, hw'⟩ => hidle (hbusy hw')
  spawned ms m w hw hw' := (h.spawned hw hw').loop
  undisturbed ms m w w' hw hw' hm := h.undisturbed hw hw' hm
  pausing _ _ hm := h.pausing hm
  cancelling _ _ _ hm hw := h.cancelling hm hw
  held ms later hpaused hlater := (h.held hpaused hlater).2
  cancelled ms later w w' hw hw' hcancelled := by
    refine h.lasts_of (P := fun v => v.gate.cancelled = true ∧ v.loop.rounds = w.loop.rounds ∧
      (v.loop.Busy → w.loop.Busy)) ?_ hw ⟨hcancelled, rfl, id⟩ hw'
    rintro ends v v' hstep ⟨hv, hrounds, hbusy⟩
    have hnone := hstep.begins_none hv
    exact ⟨hstep.cancelled hv, hnone.1.trans hrounds, fun h => hbusy (hnone.2 h)⟩
  interrupted ms m w w' hw hw' hm hexited hcancelled wait next hstage := by
    obtain ⟨now, answer, rfl⟩ := h.turned_of hw hw' hm
    obtain ⟨outcome, g, hturn⟩ := Activity.turn_of_cancelled hcancelled now wait next
    exact ⟨outcome, by simp [Worker.turn, Loop.turn, hexited, hstage, hturn]⟩
  returns ms later w w' hw hw' hcancelled hidle hturns := by
    obtain ⟨v, hv, -, hclosing⟩ := h.closing hw hcancelled hidle later
    rw [hw'] at hv
    cases hv
    rw [Nat.sub_eq_zero_of_le hturns] at hclosing
    cases hclosing with
    | stopped hstopped => exact Or.inl hstopped
    | exited hexited hidle =>
      exact (h.exited hw' hexited).imp_right fun hend => ⟨hexited, hend.resolve_left hidle⟩
  shown ms w hw := h.always (P := fun _ w => w.Shown) Worker.Fresh.shown
    (fun hw hstep _ => hw.stepped hstep) ms w hw
  stopped ms later w w' hw hw' hstopped :=
    h.lasts_of (P := fun w => w.loop.stage = .stopped) Worker.Stepped.stopped hw hstopped hw'
  exited ms w hw hexited := h.exited hw hexited

end Tended

end Career

end DurableQueue
