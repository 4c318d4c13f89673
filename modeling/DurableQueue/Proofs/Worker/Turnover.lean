import DurableQueue.Proofs.Worker.Roster

/-!
# The turnover of a pool

What the steps of a pool do to its workers in the long run.

* `Pool.EndsOnly` says that workers come and go at the young end of the pool only;
* `Pool.Later` compares a pool with itself at a later time: what has exited, what is shut down and
  what is terminated stays so, and a pool that is shut down spawns nobody.
-/

namespace DurableQueue.Pool

variable {A : Signature} {p p' p'' : Pool A}

/-! ### The ends of the list -/

/-- Either the youngest cease to serve the queue and nobody is spawned, or those who are spawned
are the youngest that serve it. -/
def EndsOnly (p p' : Pool A) : Prop :=
  p'.workers.length = p.workers.length ∧ p'.live <+: p.live ∨
    p'.live = p.live ++ List.range' p.workers.length (p'.workers.length - p.workers.length)

theorem endsOnly_of_eq (hlength : p'.workers.length = p.workers.length) (hlive : p'.live = p.live) :
    p.EndsOnly p' :=
  Or.inl ⟨hlength, hlive ▸ List.prefix_rfl⟩

theorem endsOnly_resizeTo (p : Pool A) (n : Nat) : p.EndsOnly (p.resizeTo n) := by
  rw [EndsOnly, length_resizeTo, live_resizeTo]
  split_ifs with h
  · exact Or.inl ⟨by omega, List.take_prefix n p.live⟩
  · rw [Nat.add_sub_cancel_left]
    exact Or.inr rfl

theorem length_shutdown (p : Pool A) : p.shutdown.workers.length = p.workers.length := by
  unfold shutdown
  split
  · rfl
  · simp [cancelAll, length_resizeTo]

/-- Workers come and go at the young end of the pool. -/
theorem Step.endsOnly (hstep : p.Step p') : p.EndsOnly p' := by
  cases hstep with
  | start threadCount =>
    unfold Pool.start
    split
    · exact endsOnly_resizeTo { p with started := true } _
    · exact endsOnly_of_eq rfl rfl
  | follow observer => exact endsOnly_of_eq rfl rfl
  | resize threadCount =>
    unfold Pool.resize
    split
    · exact endsOnly_of_eq rfl rfl
    · exact endsOnly_resizeTo p _
  | pause => exact endsOnly_of_eq (length_modifyAll ..) (live_modifyAll ..)
  | unpause => exact endsOnly_of_eq (length_modifyAll ..) (live_modifyAll ..)
  | wakeup => exact endsOnly_of_eq (length_modifyAll ..) (live_modifyAll ..)
  | shutdown =>
    refine Or.inl ⟨p.length_shutdown, ?_⟩
    unfold Pool.shutdown
    split
    · exact List.prefix_rfl
    · simp [cancelAll, live_resizeTo]
  | act hw hexited hact => exact endsOnly_of_eq (List.length_modify ..) rfl

/-! ### Later on -/

/-- A pool and the same pool at a later time. -/
structure Later (p p' : Pool A) : Prop where
  spawned : p.workers.length ≤ p'.workers.length
  exited : ∀ i, p.hasExited i = true → p'.hasExited i = true
  isShutdown : p.isShutdown = true → p'.isShutdown = true
  /-- Nobody is spawned once the pool is shut down. -/
  ended : p.isShutdown = true → p'.workers.length = p.workers.length

theorem Later.refl (p : Pool A) : p.Later p := ⟨Nat.le_refl _, fun _ h => h, id, fun _ => rfl⟩

theorem Later.trans (h : p.Later p') (h' : p'.Later p'') : p.Later p'' where
  spawned := Nat.le_trans h.spawned h'.spawned
  exited i hi := h'.exited i (h.exited i hi)
  isShutdown hend := h'.isShutdown (h.isShutdown hend)
  ended hend := (h'.ended (h.isShutdown hend)).trans (h.ended hend)

/-- The pool is terminated when it is shut down and every worker it has ever had has exited. -/
theorem isTerminated_iff (p : Pool A) :
    p.isTerminated = true ↔
      p.isShutdown = true ∧ ∀ i < p.workers.length, p.hasExited i = true := by
  rw [isTerminated, Bool.and_eq_true_iff, List.all_eq_true]
  refine and_congr_right fun _ => ⟨fun h i hi => ?_, fun h w hw => ?_⟩
  · rw [hasExited, List.getElem?_eq_getElem hi]
    exact h _ (List.getElem_mem hi)
  · obtain ⟨i, hi, rfl⟩ := List.getElem_of_mem hw
    simpa [hasExited, List.getElem?_eq_getElem hi] using h i hi

theorem Later.isTerminated (h : p.Later p') (hend : p.isTerminated = true) :
    p'.isTerminated = true := by
  rw [isTerminated_iff] at hend ⊢
  refine ⟨h.isShutdown hend.1, fun i hi => h.exited i (hend.2 i ?_)⟩
  rwa [h.ended hend.1] at hi

theorem hasExited_modify {f : Worker A → Worker A} {i : Nat} {j : Nat}
    (hf : ∀ w, p.workers[i]? = some w → w.exited = true → (f w).exited = true)
    (hj : p.hasExited j = true) : (p.modify i f).hasExited j = true := by
  rw [hasExited, Option.any_eq_true] at hj
  obtain ⟨w, hw, hexited⟩ := hj
  rw [hasExited, Pool.modify, List.getElem?_modify, hw]
  by_cases hij : i = j
  · subst hij
    simpa using hf w hw hexited
  · simpa [hij] using hexited

theorem hasExited_modifyAll {f : Worker A → Worker A} (hf : ∀ w, (f w).exited = w.exited)
    (is : List Nat) {j : Nat} (hj : p.hasExited j = true) :
    (p.modifyAll is f).hasExited j = true := by
  unfold Pool.modifyAll
  induction is generalizing p with
  | nil => exact hj
  | cons i is ih => exact ih (hasExited_modify (fun w _ hw => (hf w).trans hw) hj)

theorem hasExited_resizeTo {i : Nat} (n : Nat) (hi : p.hasExited i = true) :
    (p.resizeTo n).hasExited i = true := by
  refine hasExited_modifyAll (p := p.tidy.grow (n - p.size)) (f := Worker.withGate Gate.cancel)
    (fun _ => rfl) _ ?_
  obtain ⟨w, hw, hexited⟩ := (Option.any_eq_true _ _).1 hi
  have hlt := (List.getElem?_eq_some_iff.1 hw).1
  rw [grow_eq, hasExited]
  show (p.workers ++ _)[i]?.any (·.exited) = true
  rw [List.getElem?_append_left hlt]
  exact hi

/-- A pool that is not shut down may be given another size. -/
theorem later_resizeTo (hopen : p.isShutdown = false) (n : Nat) : p.Later (p.resizeTo n) where
  spawned := by
    rw [length_resizeTo]
    exact Nat.le_add_right _ _
  exited _ hi := hasExited_resizeTo n hi
  isShutdown hend := absurd hend (by simp [hopen])
  ended hend := absurd hend (by simp [hopen])

/-- Workers are told something. -/
theorem later_signal (paused : Bool) (is : List Nat) (f : Gate → Gate) :
    p.Later ({ p with paused }.modifyAll is (Worker.withGate f)) where
  spawned := Nat.le_of_eq (length_modifyAll { p with paused } is _).symm
  exited _ hi :=
    hasExited_modifyAll (p := { p with paused }) (f := Worker.withGate f) (fun _ => rfl) is hi
  isShutdown hend := (isShutdown_modifyAll { p with paused } is _).trans hend
  ended _ := length_modifyAll { p with paused } is _

theorem later_shutdown (p : Pool A) : p.Later p.shutdown := by
  by_cases hend : p.isShutdown = true
  · rw [Pool.shutdown, if_pos hend]
    exact Later.refl p
  · refine ⟨Nat.le_of_eq p.length_shutdown.symm, fun i hi => ?_, fun h => absurd h hend,
      fun h => absurd h hend⟩
    rw [Pool.shutdown, if_neg hend]
    refine hasExited_modifyAll ?_ _ ?_
    · exact fun _ => rfl
    · have hi := hasExited_resizeTo 0 hi
      simpa [hasExited, cancelAll, Worker.withGate, Option.any_map, Function.comp_def] using hi

/-- Every step leads on. -/
theorem Step.later (hstep : p.Step p') : p.Later p' := by
  cases hstep with
  | start threadCount =>
    unfold Pool.start
    split
    next hstart =>
      have hopen : p.isShutdown = false := by
        simpa using (Bool.and_eq_true_iff.1 hstart).2
      have hstarted : p.Later { p with started := true } := { Later.refl p with }
      exact hstarted.trans (later_resizeTo (p := { p with started := true }) hopen _)
    · exact Later.refl p
  | follow observer => exact { Later.refl p with }
  | resize threadCount =>
    unfold Pool.resize
    split
    · exact Later.refl p
    next hopen => exact later_resizeTo (eq_false_of_ne_true hopen) _
  | pause => exact later_signal true p.live Gate.pause
  | unpause => exact later_signal false p.live Gate.unpause
  | wakeup => exact later_signal p.paused p.live Gate.requestWake
  | shutdown => exact p.later_shutdown
  | act hw hexited hact =>
    refine ⟨Nat.le_of_eq (List.length_modify ..).symm, fun j hj => ?_, id,
      fun _ => List.length_modify ..⟩
    refine hasExited_modify (fun v hv hv' => ?_) hj
    rw [hw] at hv
    cases hv
    simp [hexited] at hv'

theorem later_of_steps (hsteps : Relation.ReflTransGen Step p p') : p.Later p' := by
  induction hsteps with
  | refl => exact Later.refl p
  | tail _ hstep ih => exact ih.trans hstep.later

end DurableQueue.Pool
