import DurableQueue.Proofs.Worker.Career
import DurableQueue.Proofs.Worker.Turnover

/-!
# Pauses and cancellations hold

A worker by itself, and each worker of a pool, has a career in which every move does what it should
do. So what holds of such careers holds of both.

* `Worker.Move` and `Pool.Move` are the moves of a worker and of a pool;
* `Pool.Tells` says what the operations of a pool do to its workers: they tell them something, and
  spawn some;
* `Career.alone` and `Career.inPool` are the careers.

**Pauses and cancellations hold** (`pauses_and_cancellations_hold`).
-/

namespace DurableQueue

variable {A : Signature}

/-! ### A worker by itself -/

/-- A move of a worker by itself: it is told something, or takes a turn. -/
inductive Worker.Move (A : Signature)
  | signal (σ : Signal)
  | turn (now : Nat) (answer : (r : A.Request) → A.Answer r)

variable (body : Nat → PacedProgram A Unit)

/-- Make a move. -/
def Worker.move (w : Worker A) : Worker.Move A → Worker A
  | .signal σ => w.withGate σ.apply
  | .turn now answer => w.turn body now answer

/-- The career of a worker by itself. -/
def Career.alone (paused : Bool) : Career A (Worker.Move A) where
  worker ms := some (ms.foldl (Worker.move body) (.new paused))
  isPaused ms := (ms.foldl (Worker.move body) (.new paused)).gate.paused
  isEnded _ := false
  pauses
    | .signal .pause => true
    | _ => false
  unpauses
    | .signal .unpause => true
    | _ => false
  cancels _
    | .signal .cancel => true
    | _ => false
  isTurn
    | .turn .. => true
    | _ => false

theorem Career.tended_alone (paused : Bool) : (alone body paused).Tended body where
  first hw := by
    cases hw
    exact Worker.fresh_new paused
  spawned hnone := nomatch hnone
  turned {ms m w} hw hm := by
    cases hw
    cases m with
    | signal σ => cases σ <;> cases hm
    | turn now answer => exact ⟨now, answer, by simp [alone, Worker.move]⟩
  told {ms m w} hw hm := by
    cases hw
    cases m with
    | signal σ => exact ⟨_, by simp [alone, Worker.move], Worker.told_signal _ σ _⟩
    | turn now answer => cases hm
  pausing {ms m} hm := by
    simp only [alone, List.foldl_append, List.foldl_cons, List.foldl_nil]
    cases m with
    | signal σ =>
      cases σ with
      | pause => rfl
      | _ => cases hm
    | turn now answer => cases hm
  paused {ms m} hpaused hm := by
    simp only [alone, List.foldl_append, List.foldl_cons, List.foldl_nil] at hpaused ⊢
    cases m with
    | signal σ =>
      cases σ with
      | pause => rfl
      | unpause => cases hm
      | wake => exact hpaused
      | cancel => exact hpaused
    | turn now answer =>
      exact (congrArg Prod.fst (Worker.turned body now answer _).orders).trans hpaused
  obeyed hw hpaused _ := by
    cases hw
    exact Or.inl hpaused
  cancelling {ms m w} hm hw := by
    cases m with
    | signal σ =>
      cases σ with
      | cancel =>
        simp only [alone, List.foldl_append, List.foldl_cons, List.foldl_nil] at hw
        cases hw
        rfl
      | _ => cases hm
    | turn now answer => cases hm
  ended hend := hend

/-! ### The operations of a pool -/

namespace Pool

variable {p p' p'' : Pool A}

/-- All that the operations of a pool do to the workers that it has. -/
structure Tells (p p' : Pool A) : Prop where
  told : ∀ {i : Nat} {w : Worker A}, p.workers[i]? = some w →
    ∃ w', p'.workers[i]? = some w' ∧ w.Told (p'.isShutdown = true) w'
  isShutdown : p.isShutdown = true → p'.isShutdown = true

theorem Tells.refl (p : Pool A) : p.Tells p := ⟨fun hw => ⟨_, hw, .refl _ _⟩, id⟩

theorem Tells.trans (h : p.Tells p') (h' : p'.Tells p'') : p.Tells p'' where
  told hw := by
    obtain ⟨v, hv, htold⟩ := h.told hw
    obtain ⟨w', hw', htold'⟩ := h'.told hv
    exact ⟨w', hw', (htold.mono h'.isShutdown).trans htold'⟩
  isShutdown hend := h'.isShutdown (h.isShutdown hend)

theorem tells_modifyAll {f : Worker A → Worker A} (hf : ∀ w, f (f w) = f w)
    (htold : ∀ w : Worker A, w.Told (p.isShutdown = true) (f w)) (is : List Nat) :
    p.Tells (p.modifyAll is f) where
  told {i w} hw := by
    refine ⟨if i ∈ is then f w else w, by rw [getElem?_modifyAll hf, hw]; rfl, ?_⟩
    rw [isShutdown_modifyAll]
    split_ifs
    · exact htold w
    · exact .refl _ w
  isShutdown hend := by rwa [isShutdown_modifyAll]

theorem tells_signal (p : Pool A) (is : List Nat) (σ : Signal) :
    p.Tells (p.modifyAll is (Worker.withGate σ.apply)) :=
  tells_modifyAll (by cases σ <;> exact fun _ => rfl) (fun w => w.told_signal σ _) is

theorem tells_resizeTo (p : Pool A) (n : Nat) : p.Tells (p.resizeTo n) := by
  have hgrow : p.Tells (p.tidy.grow (n - p.size)) := by
    rw [grow_eq]
    refine ⟨fun {i w} hw => ⟨w, ?_, .refl _ w⟩, id⟩
    exact (List.getElem?_append_left (List.getElem?_eq_some_iff.1 hw).1).trans hw
  have hshrink := (p.tidy.grow (n - p.size)).tells_signal
    (((p.tidy.grow (n - p.size)).live.drop n).reverse) .cancel
  exact hgrow.trans ⟨hshrink.told, hshrink.isShutdown⟩

theorem tells_start (p : Pool A) (threadCount : Count) : p.Tells (p.start threadCount) := by
  unfold start
  split
  · have h := tells_resizeTo { p with started := true } threadCount.val
    exact ⟨h.told, h.isShutdown⟩
  · exact .refl p

theorem tells_resize (p : Pool A) (threadCount : Count) : p.Tells (p.resize threadCount) := by
  unfold resize
  split
  · exact .refl p
  · exact p.tells_resizeTo _

theorem tells_shutdown (p : Pool A) : p.Tells p.shutdown := by
  unfold shutdown
  split
  · exact .refl p
  · have hcancel : (p.resizeTo 0).Tells
        { (p.resizeTo 0).cancelAll with isShutdown := true, observer := none } := by
      refine ⟨fun {i w} hw => ⟨w.withGate Gate.cancel, ?_, w.told_signal .cancel _⟩, fun _ => rfl⟩
      simp [cancelAll, hw]
    exact ((p.tells_resizeTo 0).trans hcancel).trans
      (tells_modifyAll (f := Worker.abort) (fun _ => rfl) (fun w => w.told_abort rfl) _)

/-- Whom a change of the size spawns has done nothing yet. -/
theorem fresh_resizeTo {n i : Nat} {w : Worker A} (hnone : p.workers[i]? = none)
    (hw : (p.resizeTo n).workers[i]? = some w) : w.Fresh := by
  rcases Nat.le_total n p.size with h | h
  · have hlength := p.length_resizeTo n
    rw [List.getElem?_eq_none_iff] at hnone
    have hi := (List.getElem?_eq_some_iff.1 hw).1
    omega
  · rw [resizeTo_of_ge h, grow_eq] at hw
    have hw : (p.workers ++ List.replicate (n - p.size) (.new p.paused))[i]? = some w := hw
    rw [List.getElem?_append_right (List.getElem?_eq_none_iff.1 hnone)] at hw
    rw [List.eq_of_mem_replicate (List.mem_of_getElem? hw)]
    exact Worker.fresh_new p.paused

/-- Whom a shrinking lets go is cancelled: all but the oldest. -/
theorem cancelled_resizeTo {n i : Nat} {w : Worker A} (hi : i ∈ p.live.drop n)
    (hw : (p.resizeTo n).workers[i]? = some w) : w.gate.cancelled = true := by
  have hn : n ≤ p.size := by
    refine Nat.le_of_not_gt fun hlt => ?_
    rw [List.drop_of_length_le (Nat.le_of_lt hlt)] at hi
    cases hi
  rw [resizeTo_of_le hn] at hw
  obtain ⟨v, -, rfl⟩ := of_getElem?_modifyAll (f := Worker.withGate Gate.cancel) (fun _ => rfl) hw
  have hgone : i ∈ (p.tidy.live.drop n).reverse := List.mem_reverse.2 hi
  rw [if_pos hgone]
  rfl

/-! ### The moves of a pool -/

/-- A move of a pool: an operation, or something that one of its workers does. -/
inductive Move (A : Signature)
  | start (threadCount : Count)
  | resize (threadCount : Count)
  | pause
  | unpause
  | wakeup
  | shutdown
  | turn (i : Nat) (now : Nat) (answer : (r : A.Request) → A.Answer r)
  /-- An aborted worker is dropped where it is. -/
  | drop (i : Nat)

/-- The turns of a worker. -/
def Move.isTurnOf (i : Nat) : Move A → Bool
  | .turn j _ _ => j = i
  | _ => false

/-- The moves that are to cancel a worker of a pool: the shutdown, and a change of the size that
leaves no room for it. -/
def Move.cancels (p : Pool A) (i : Nat) : Move A → Bool
  | .resize threadCount => i ∈ p.live.drop threadCount.val
  | .shutdown => true
  | _ => false

/-- Make a move. -/
def move (body : Nat → PacedProgram A Unit) (p : Pool A) : Move A → Pool A
  | .start threadCount => p.start threadCount
  | .resize threadCount => p.resize threadCount
  | .pause => p.pause
  | .unpause => p.unpause
  | .wakeup => p.wakeup
  | .shutdown => p.shutdown
  | .turn i now answer => p.modify i (Worker.turn body now answer)
  | .drop i => p.modify i Worker.drop

variable {body : Nat → PacedProgram A Unit}

theorem steps_move (p : Pool A) (m : Move A) : Relation.ReflTransGen Step p (p.move body m) := by
  cases m with
  | start threadCount => exact .single (.start p threadCount)
  | resize threadCount => exact .single (.resize p threadCount)
  | pause => exact .single (.pause p)
  | unpause => exact .single (.unpause p)
  | wakeup => exact .single (.wakeup p)
  | shutdown => exact .single (.shutdown p)
  | turn i now answer => exact steps_modify fun w _ => w.turn_eq_or_acts now answer
  | drop i => exact steps_modify fun w _ => w.drop_eq_or_acts

theorem roster_run (ms : List (Move A)) : (ms.foldl (move body) new).Roster := by
  induction ms using List.reverseRecOn with
  | nil => exact roster_new
  | append_singleton ms m ih =>
    rw [List.foldl_append]
    exact ih.steps (steps_move _ m)

/-- What a move does to the workers that do not take a turn in it. -/
theorem told_move {i : Nat} {w : Worker A} {m : Move A} (hw : p.workers[i]? = some w)
    (hm : m.isTurnOf i = false) :
    ∃ w', (p.move body m).workers[i]? = some w' ∧
      w.Told ((p.move body m).isShutdown = true) w' := by
  cases m with
  | start threadCount => exact (p.tells_start threadCount).told hw
  | resize threadCount => exact (p.tells_resize threadCount).told hw
  | pause => exact (tells_signal { p with paused := true } p.live .pause).told hw
  | unpause => exact (tells_signal { p with paused := false } p.live .unpause).told hw
  | wakeup => exact (p.tells_signal p.live .wake).told hw
  | shutdown => exact p.tells_shutdown.told hw
  | turn j now answer =>
    have hne : j ≠ i := by simpa [Move.isTurnOf] using hm
    exact ⟨w, by simp [move, modify, hw, hne], .refl _ w⟩
  | drop j =>
    refine ⟨if j = i then w.drop else w, ?_, ?_⟩
    · simp [move, modify, List.getElem?_modify, hw]
    · split_ifs
      · exact w.told_drop _
      · exact .refl _ w

/-- Whom a move spawns has done nothing yet. -/
theorem fresh_move {i : Nat} {w : Worker A} {m : Move A} (hnone : p.workers[i]? = none)
    (hw : (p.move body m).workers[i]? = some w) : w.Fresh := by
  have hlength : (p.move body m).workers.length ≠ p.workers.length := by
    rw [List.getElem?_eq_none_iff] at hnone
    have hi := (List.getElem?_eq_some_iff.1 hw).1
    omega
  cases m with
  | start threadCount =>
    simp only [move, start] at hw
    split at hw
    · exact fresh_resizeTo (p := { p with started := true }) hnone hw
    · exact nomatch hnone.symm.trans hw
  | resize threadCount =>
    simp only [move, resize] at hw
    split at hw
    · exact nomatch hnone.symm.trans hw
    · exact fresh_resizeTo hnone hw
  | pause => exact absurd (length_modifyAll ..) hlength
  | unpause => exact absurd (length_modifyAll ..) hlength
  | wakeup => exact absurd (length_modifyAll ..) hlength
  | shutdown => exact absurd p.length_shutdown hlength
  | turn j now answer => exact absurd (List.length_modify ..) hlength
  | drop j => exact absurd (List.length_modify ..) hlength

theorem paused_move {m : Move A} (hpaused : p.paused = true) (hm : m ≠ .unpause) :
    (p.move body m).paused = true := by
  cases m with
  | start threadCount =>
    simp only [move, start]
    split
    · rw [paused_resizeTo]
      exact hpaused
    · exact hpaused
  | resize threadCount =>
    simp only [move, resize]
    split
    · exact hpaused
    · rw [paused_resizeTo]
      exact hpaused
  | pause => exact paused_modifyAll ..
  | unpause => exact absurd rfl hm
  | wakeup => exact (paused_modifyAll ..).trans hpaused
  | shutdown =>
    simp only [move, shutdown]
    split
    · exact hpaused
    · rw [paused_modifyAll]
      exact (p.paused_resizeTo 0).trans hpaused
  | turn j now answer => exact hpaused
  | drop j => exact hpaused

/-- A move that is to cancel a worker does so. -/
theorem Roster.cancelled_move (h : p.Roster) {i : Nat} {w : Worker A} {m : Move A}
    (hm : m.cancels p i = true) (hw : (p.move body m).workers[i]? = some w) :
    w.gate.cancelled = true := by
  cases m with
  | resize threadCount =>
    have hi : i ∈ p.live.drop threadCount.val := of_decide_eq_true hm
    have hopen : p.isShutdown = false := by
      refine eq_false_of_ne_true fun hend => ?_
      rw [h.idle hend, List.drop_nil] at hi
      cases hi
    simp only [move, resize_of_open hopen] at hw
    exact cancelled_resizeTo hi hw
  | shutdown => exact (h.shutdown.ended p.isShutdown_shutdown hw).1
  | _ => cases hm

/-- Who has not exited is paused when its pool is, or else has to end. -/
theorem Roster.obeyed (h : p.Roster) {i : Nat} {w : Worker A} (hw : p.workers[i]? = some w)
    (hpaused : p.paused = true) (hexited : w.exited = false) :
    w.gate.paused = true ∨ w.gate.cancelled = true := by
  rcases List.mem_append.1 (h.listed hw hexited) with hi | hi
  · have horders := h.live hi hw
    exact Or.inl ((congrArg Prod.fst horders).trans hpaused)
  · exact Or.inr (h.retired hi hw)

end Pool

/-- The career of a worker of a pool. -/
def Career.inPool (i : Nat) : Career A (Pool.Move A) where
  worker ms := (ms.foldl (Pool.move body) .new).workers[i]?
  isPaused ms := (ms.foldl (Pool.move body) .new).paused
  isEnded ms := (ms.foldl (Pool.move body) .new).isShutdown
  pauses
    | .pause => true
    | _ => false
  unpauses
    | .unpause => true
    | _ => false
  cancels ms := Pool.Move.cancels (ms.foldl (Pool.move body) .new) i
  isTurn := Pool.Move.isTurnOf i

theorem Career.tended_inPool (i : Nat) : (inPool body i).Tended body where
  first hw := nomatch hw
  spawned {ms m w} hnone hw := by
    simp only [inPool, List.foldl_append, List.foldl_cons, List.foldl_nil] at hnone hw
    exact Pool.fresh_move hnone hw
  turned {ms m w} hw hm := by
    simp only [inPool, List.foldl_append, List.foldl_cons, List.foldl_nil] at hw hm ⊢
    cases m with
    | turn j now answer =>
      obtain rfl : j = i := by simpa [Pool.Move.isTurnOf] using hm
      exact ⟨now, answer, by simp [Pool.move, Pool.modify, hw]⟩
    | _ => cases hm
  told {ms m w} hw hm := by
    simp only [inPool, List.foldl_append, List.foldl_cons, List.foldl_nil] at hw hm ⊢
    exact Pool.told_move hw hm
  pausing {ms m} hm := by
    simp only [inPool, List.foldl_append, List.foldl_cons, List.foldl_nil]
    cases m with
    | pause => exact Pool.paused_modifyAll ..
    | _ => cases hm
  paused {ms m} hpaused hm := by
    simp only [inPool, List.foldl_append, List.foldl_cons, List.foldl_nil] at hpaused hm ⊢
    exact Pool.paused_move hpaused fun h => by simp [h] at hm
  obeyed {ms w} hw hpaused hexited := (Pool.roster_run ms).obeyed hw hpaused hexited
  cancelling {ms m w} hm hw := by
    simp only [inPool, List.foldl_append, List.foldl_cons, List.foldl_nil] at hm hw
    exact (Pool.roster_run ms).cancelled_move hm hw
  ended {ms m} hend := by
    simp only [inPool, List.foldl_append, List.foldl_cons, List.foldl_nil] at hend ⊢
    exact (Pool.later_of_steps (Pool.steps_move _ m)).isShutdown hend

/-! ### Pauses and cancellations -/

/-- **Pauses and cancellations hold.** However pauses and their ends, requests to wake up,
cancellations and turns follow on each other, a worker by itself begins an iteration only when it
is neither cancelled nor paused; and so does every worker of a pool, whenever it was spawned and
whatever is done to the pool. Whoever is to be cancelled is: a worker by itself by the signal, and
one of a pool by a change of the size that leaves no room for it and by the shutdown. A cancelled
worker stops as soon as it is in no iteration any more. An iteration in progress goes on as if
there were no pauses. -/
theorem pauses_and_cancellations_hold :
    (∀ paused, (Career.alone body paused).Gated body) ∧
    (∀ i, (Career.inPool body i).Gated body) ∧
    ∀ (w : Worker A) (σ : Signal) now answer, w.loop.Busy → σ = .pause ∨ σ = .unpause →
      (w.withGate σ.apply).turn body now answer = (w.turn body now answer).withGate σ.apply :=
  ⟨fun paused => (Career.tended_alone body paused).gated,
    fun i => (Career.tended_inPool body i).gated,
    fun _ _ now answer hbusy hσ => Worker.turn_withGate hbusy hσ now answer⟩

end DurableQueue
