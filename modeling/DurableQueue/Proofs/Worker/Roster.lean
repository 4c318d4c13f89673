import DurableQueue.Worker.Pool
import Mathlib.Data.List.Nodup
import Mathlib.Logic.Relation

/-!
# The roster of a pool

Workers that were cancelled may still be busy, and a pool keeps them on a second list until they
have exited. Nobody is on both lists, and nobody who has not exited is on neither.

* `Worker.Acts` is what a worker does by itself, and `Pool.Step` a step of a pool: an operation, or
  something that one of its workers does;
* the equations say what a change of the size does to the lists (`live_resizeTo`), and what a
  change of several workers does to each of them (`getElem?_modifyAll`);
* `Pool.Roster` is what holds of the lists at any time. There is one lemma for each operation, and
  `Roster.step` for all of them.
-/

namespace DurableQueue

variable {A : Signature}

/-! ### Workers -/

/-- What a gate says to its worker: whether it is paused, and whether it is cancelled. -/
def Gate.orders (g : Gate) : Bool × Bool := (g.paused, g.cancelled)

theorem Wait.orders_check (w : Wait) (now : Nat) (g : Gate) :
    (w.check now g).2.orders = g.orders := by
  unfold Wait.check
  split_ifs <;> rfl

theorem Activity.orders_turn {now : Nat} {g g' : Gate} {a a' : Activity A}
    (h : a.turn now g = .moves a' g') : g'.orders = g.orders := by
  unfold Activity.turn at h
  split at h
  · cases h
  · cases h
  · cases h; rfl
  · split at h
    · cases h; rfl
    · cases h
  · split at h
    · cases h; rfl
    · cases h
  next w next =>
    have hw := w.orders_check now g
    split at h
    next outcome looked heq =>
      cases h
      rw [heq] at hw
      exact hw
    next looked heq =>
      split at h
      · cases h
      · cases h
        rw [heq] at hw
        exact hw

/-- Only a wait panics, when the clock cannot show its end. -/
theorem Activity.wait_of_fails {now : Nat} {g g' : Gate} {a : Activity A}
    (h : a.turn now g = .fails g') :
    ∃ timeout policy next, a = .ready (.ask (.wait timeout policy) next) ∧
      Wait.begin now timeout policy = none ∧ g' = g.become .waiting := by
  unfold Activity.turn at h
  split at h
  · cases h
  · cases h
  · cases h
  next timeout policy next =>
    split at h
    · cases h
    next hbegin =>
      cases h
      exact ⟨timeout, policy, next, rfl, hbegin, rfl⟩
  · split at h <;> cases h
  · split at h
    · cases h
    · split at h <;> cases h

/-- Only an iteration panics. -/
theorem Loop.wait_of_fails {body : Nat → PacedProgram A Unit} {now : Nat} {g g' : Gate}
    {l : Loop A} (h : l.turn body now g = .fails g') :
    ∃ timeout policy next, l.stage = .busy (.ready (.ask (.wait timeout policy) next)) ∧
      Wait.begin now timeout policy = none ∧ g' = g.become .waiting := by
  unfold Loop.turn at h
  split at h
  · split_ifs at h
  · split_ifs at h
  next a hstage =>
    split at h
    · cases h
    · cases h
    · cases h
    · cases h
    next heq =>
      cases h
      obtain ⟨timeout, policy, next, rfl, hwait⟩ := Activity.wait_of_fails heq
      exact ⟨timeout, policy, next, hstage, hwait⟩
  · cases h

/-- No worker changes what its gate says to it. -/
theorem Loop.orders_turn {body : Nat → PacedProgram A Unit} {now : Nat} {g g' : Gate}
    {l l' : Loop A} (h : l.turn body now g = .moves l' g') : g'.orders = g.orders := by
  unfold Loop.turn at h
  split at h
  · split_ifs at h <;> cases h <;> rfl
  · split_ifs at h <;> cases h <;> rfl
  next a =>
    split at h
    next b looked heq =>
      cases h
      exact Activity.orders_turn heq
    · cases h
    · cases h
    · cases h; rfl
    · cases h
  · cases h

namespace Worker

/-- What a worker does by itself, whatever its iterations are and however they are answered. -/
inductive Acts : Worker A → Worker A → Prop
  | moves {w : Worker A} {body : Nat → PacedProgram A Unit} {now : Nat} {loop : Loop A}
      {gate : Gate} (h : w.loop.turn body now w.gate = .moves loop gate) :
      Acts w { w with loop, gate }
  | asks {w : Worker A} {body : Nat → PacedProgram A Unit} {now : Nat} {r : A.Request}
      {next : A.Answer r → Loop A} (h : w.loop.turn body now w.gate = .asks r next)
      (answer : A.Answer r) : Acts w { w with loop := next answer }
  /-- It has come to its end, or was dropped where it was. -/
  | exits (w : Worker A) : Acts w { w with exited := true }
  | fails {w : Worker A} {body : Nat → PacedProgram A Unit} {now : Nat} {gate : Gate}
      (h : w.loop.turn body now w.gate = .fails gate) : Acts w { w with gate, exited := true }

theorem Acts.keeps {w w' : Worker A} (h : w.Acts w') :
    w'.gate.orders = w.gate.orders ∧ w'.aborted = w.aborted := by
  cases h with
  | moves h => exact ⟨Loop.orders_turn h, rfl⟩
  | asks h answer => exact ⟨rfl, rfl⟩
  | exits => exact ⟨rfl, rfl⟩
  | fails h =>
    obtain ⟨-, -, -, -, -, rfl⟩ := Loop.wait_of_fails h
    exact ⟨rfl, rfl⟩

end Worker

namespace Pool

variable {p p' p'' : Pool A}

/-- A step of a pool. -/
inductive Step : Pool A → Pool A → Prop
  | start (p : Pool A) (threadCount : Count) : Step p (p.start threadCount)
  | follow (p : Pool A) (observer : Option ObserverId) : Step p { p with observer }
  | resize (p : Pool A) (threadCount : Count) : Step p (p.resize threadCount)
  | pause (p : Pool A) : Step p p.pause
  | unpause (p : Pool A) : Step p p.unpause
  | wakeup (p : Pool A) : Step p p.wakeup
  | shutdown (p : Pool A) : Step p p.shutdown
  | act {p : Pool A} {i : Nat} {w w' : Worker A} (hw : p.workers[i]? = some w)
      (hexited : w.exited = false) (h : w.Acts w') : Step p (p.modify i fun _ => w')

/-! ### Equations -/

theorem modifyAll_eq (p : Pool A) (is : List Nat) (f : Worker A → Worker A) :
    p.modifyAll is f = { p with workers := is.foldl (fun ws i => ws.modify i f) p.workers } := by
  unfold modifyAll
  induction is generalizing p with
  | nil => rfl
  | cons i is ih => rw [List.foldl_cons, ih]; rfl

section

variable (p : Pool A) (is : List Nat) (f : Worker A → Worker A)

@[simp] theorem live_modifyAll : (p.modifyAll is f).live = p.live := by rw [modifyAll_eq]

@[simp] theorem size_modifyAll : (p.modifyAll is f).size = p.size := by
  rw [size, live_modifyAll, size]

@[simp] theorem retired_modifyAll : (p.modifyAll is f).retired = p.retired := by rw [modifyAll_eq]

@[simp] theorem paused_modifyAll : (p.modifyAll is f).paused = p.paused := by rw [modifyAll_eq]

@[simp] theorem started_modifyAll : (p.modifyAll is f).started = p.started := by rw [modifyAll_eq]

@[simp] theorem isShutdown_modifyAll : (p.modifyAll is f).isShutdown = p.isShutdown := by
  rw [modifyAll_eq]

@[simp] theorem observer_modifyAll : (p.modifyAll is f).observer = p.observer := by
  rw [modifyAll_eq]

end

/-- A change that may as well be made twice reaches the workers it is meant for. -/
theorem getElem?_modifyAll {f : Worker A → Worker A} (hf : ∀ w, f (f w) = f w) (p : Pool A)
    (is : List Nat) (j : Nat) :
    (p.modifyAll is f).workers[j]? = p.workers[j]?.map fun w => if j ∈ is then f w else w := by
  unfold modifyAll
  induction is generalizing p with
  | nil => simp
  | cons i is ih =>
    rw [List.foldl_cons, ih, modify, List.getElem?_modify, Option.map_eq_map, Option.map_map]
    congr 1
    funext w
    by_cases hj : i = j
    · subst hj
      simp [hf]
    · simp [hj, Ne.symm hj]

@[simp] theorem length_modifyAll (p : Pool A) (is : List Nat) (f : Worker A → Worker A) :
    (p.modifyAll is f).workers.length = p.workers.length := by
  unfold modifyAll
  induction is generalizing p with
  | nil => rfl
  | cons i is ih => rw [List.foldl_cons, ih, modify, List.length_modify]

theorem grow_eq (p : Pool A) (n : Nat) :
    p.grow n =
      { p with
        workers := p.workers ++ List.replicate n (.new p.paused)
        live := p.live ++ List.range' p.workers.length n } := by
  induction n generalizing p with
  | zero => simp [grow]
  | succ n ih => simp [grow, ih, spawn, List.replicate_succ, List.range'_succ]

/-- A pool with too many workers, or just as many as it should have, is shrunk. -/
theorem resizeTo_of_le {n : Nat} (h : n ≤ p.size) : p.resizeTo n = p.tidy.shrink n := by
  rw [resizeTo, Nat.sub_eq_zero_of_le h, grow]

/-- A pool with too few workers, or just as many as it should have, is grown. -/
theorem resizeTo_of_ge {n : Nat} (h : p.size ≤ n) : p.resizeTo n = p.tidy.grow (n - p.size) := by
  have hlength : (p.tidy.grow (n - p.size)).live.length ≤ n := by
    have hlive : p.tidy.live.length = p.size := rfl
    simp only [grow_eq, List.length_append, List.length_range', hlive]
    omega
  rw [resizeTo, shrink, List.drop_of_length_le hlength, List.take_of_length_le hlength]
  simp [modifyAll]

theorem live_resizeTo (p : Pool A) (n : Nat) :
    (p.resizeTo n).live =
      if n ≤ p.size then p.live.take n
      else p.live ++ List.range' p.workers.length (n - p.size) := by
  split_ifs with h
  · rw [resizeTo_of_le h]
    rfl
  · rw [resizeTo_of_ge (Nat.le_of_not_ge h), grow_eq]
    rfl

@[simp] theorem size_resizeTo (p : Pool A) (n : Nat) : (p.resizeTo n).size = n := by
  have hsize : p.live.length = p.size := rfl
  rw [size, live_resizeTo]
  split_ifs with h
  · rw [List.length_take, hsize, Nat.min_eq_left h]
  · simp only [List.length_append, List.length_range', hsize]
    omega

/-- A change of the size spawns the workers that are missing, and no others. -/
theorem length_resizeTo (p : Pool A) (n : Nat) :
    (p.resizeTo n).workers.length = p.workers.length + (n - p.size) := by
  rcases Nat.le_total n p.size with h | h
  · rw [resizeTo_of_le h, Nat.sub_eq_zero_of_le h]
    simp [shrink, tidy]
  · rw [resizeTo_of_ge h, grow_eq]
    simp [tidy]

@[simp] theorem isShutdown_resizeTo (p : Pool A) (n : Nat) :
    (p.resizeTo n).isShutdown = p.isShutdown := by
  simp [resizeTo, shrink, grow_eq, tidy]

@[simp] theorem paused_resizeTo (p : Pool A) (n : Nat) : (p.resizeTo n).paused = p.paused := by
  simp [resizeTo, shrink, grow_eq, tidy]

@[simp] theorem started_resizeTo (p : Pool A) (n : Nat) : (p.resizeTo n).started = p.started := by
  simp [resizeTo, shrink, grow_eq, tidy]

@[simp] theorem observer_resizeTo (p : Pool A) (n : Nat) :
    (p.resizeTo n).observer = p.observer := by
  simp [resizeTo, shrink, grow_eq, tidy]

theorem resize_of_open (hopen : p.isShutdown = false) (threadCount : Count) :
    p.resize threadCount = p.resizeTo threadCount.val := by
  rw [resize, if_neg (by simp [hopen])]

theorem isShutdown_shutdown (p : Pool A) : p.shutdown.isShutdown = true := by
  unfold shutdown
  split
  · assumption
  · rw [isShutdown_modifyAll]

theorem modify_congr {i : Nat} {f g : Worker A → Worker A}
    (h : ∀ w, p.workers[i]? = some w → f w = g w) : p.modify i f = p.modify i g := by
  have hworkers : p.workers.modify i f = p.workers.modify i g := by
    refine List.ext_getElem? fun j => ?_
    rw [List.getElem?_modify, List.getElem?_modify]
    by_cases hij : i = j
    · subst hij
      cases hw : p.workers[i]? with
      | none => rfl
      | some w => simpa using h w hw
    · simp [hij]
  rw [modify, hworkers, modify]

theorem modify_id (p : Pool A) (i : Nat) : (p.modify i fun w => w) = p := by
  have hworkers : p.workers.modify i (fun w => w) = p.workers := by
    refine List.ext_getElem? fun j => ?_
    simp [List.getElem?_modify]
  rw [modify, hworkers]

/-- A change of one worker that the worker makes by itself, if it is a change at all. -/
theorem steps_modify {i : Nat} {f : Worker A → Worker A}
    (hf : ∀ w, p.workers[i]? = some w → f w = w ∨ w.exited = false ∧ w.Acts (f w)) :
    Relation.ReflTransGen Step p (p.modify i f) := by
  cases hw : p.workers[i]? with
  | none =>
    have hsame : p.modify i f = p.modify i fun w => w :=
      modify_congr fun v hv => nomatch hw.symm.trans hv
    rw [hsame, modify_id]
  | some w =>
    have honly : ∀ v, p.workers[i]? = some v → v = w := fun v hv =>
      Option.some.inj (hv.symm.trans hw)
    rcases hf w hw with hstays | ⟨hexited, hacts⟩
    · rw [modify_congr (g := fun w => w) fun v hv => honly v hv ▸ hstays, modify_id]
    · rw [modify_congr (g := fun _ => f w) fun v hv => congrArg f (honly v hv)]
      exact .single (.act hw hexited hacts)

/-! ### The roster -/

/-- Whom the lists of a pool name: nobody twice, and everybody who has not exited. -/
structure Listed (p : Pool A) : Prop where
  spawned : ∀ i ∈ p.live ++ p.retired, i < p.workers.length
  nodup : (p.live ++ p.retired).Nodup
  listed : ∀ {i : Nat} {w : Worker A}, p.workers[i]? = some w → w.exited = false →
    i ∈ p.live ++ p.retired

/-- The lists of a pool are in order. -/
structure Roster (p : Pool A) : Prop extends Listed p where
  /-- Who serves the queue is paused when the pool is, and is not cancelled. -/
  live : ∀ {i : Nat} {w : Worker A}, i ∈ p.live → p.workers[i]? = some w →
    w.gate.orders = (p.paused, false)
  retired : ∀ {i : Nat} {w : Worker A}, i ∈ p.retired → p.workers[i]? = some w →
    w.gate.cancelled = true
  /-- Once the pool is shut down, nobody serves the queue. -/
  idle : p.isShutdown = true → p.live = []
  /-- Once the pool is shut down, everybody is cancelled, and who has not exited is aborted. -/
  ended : p.isShutdown = true → ∀ {i : Nat} {w : Worker A}, p.workers[i]? = some w →
    w.gate.cancelled = true ∧ (w.exited = false → w.aborted = true)

/-- Every worker that has not exited is on exactly one of the lists. -/
theorem Roster.listed_once (h : p.Roster) {i : Nat} {w : Worker A} (hw : p.workers[i]? = some w)
    (hexited : w.exited = false) : Xor (i ∈ p.live) (i ∈ p.retired) := by
  have hdisjoint := (List.nodup_append'.1 h.nodup).2.2
  rcases List.mem_append.1 (h.listed hw hexited) with hi | hi
  · exact Or.inl ⟨hi, fun hr => hdisjoint hi hr⟩
  · exact Or.inr ⟨hi, fun hl => hdisjoint hl hi⟩

theorem roster_new : (new : Pool A).Roster where
  spawned _ h := nomatch h
  nodup := List.nodup_nil
  listed h := nomatch h
  live h := nomatch h
  retired h := nomatch h
  idle _ := rfl
  ended _ _ _ h := nomatch h

/-- The lists name the same workers, none of whom has come back. -/
theorem Listed.congr (h : p.Listed)
    (hlists : (p'.live ++ p'.retired).Perm (p.live ++ p.retired))
    (hlength : p'.workers.length = p.workers.length)
    (hworkers : ∀ (i : Nat) (w : Worker A), p'.workers[i]? = some w →
      ∃ v, p.workers[i]? = some v ∧ (w.exited = false → v.exited = false)) : p'.Listed where
  spawned i hi := by
    rw [hlength]
    exact h.spawned i (hlists.mem_iff.1 hi)
  nodup := hlists.nodup_iff.2 h.nodup
  listed {i w} hw hexited := by
    obtain ⟨v, hv, hstays⟩ := hworkers i w hw
    exact hlists.mem_iff.2 (h.listed hv (hstays hexited))

/-! ### Size -/

theorem Roster.tidy (h : p.Roster) : p.tidy.Roster where
  spawned i hi := by
    rcases List.mem_append.1 hi with hi | hi
    · exact h.spawned i (List.mem_append_left _ hi)
    · exact h.spawned i (List.mem_append_right _ (List.mem_of_mem_filter hi))
  nodup := h.nodup.sublist (List.Sublist.append (List.Sublist.refl _) List.filter_sublist)
  listed {i w} hw hexited := by
    have hi : p.hasExited i = false := by
      have hw' : p.workers[i]? = some w := hw
      simp [hasExited, hw', hexited]
    refine List.mem_append.2 ((List.mem_append.1 (h.listed hw hexited)).imp id fun hr => ?_)
    exact List.mem_filter.2 ⟨hr, by simp [hi]⟩
  live := h.live
  retired hi := h.retired (List.mem_of_mem_filter hi)
  idle := h.idle
  ended := h.ended

/-- A worker of a pool that has spawned one: an old one, or the new one. -/
theorem of_getElem?_spawn {i : Nat} {w : Worker A} (hw : p.spawn.workers[i]? = some w) :
    p.workers[i]? = some w ∨ i = p.workers.length ∧ w = .new p.paused := by
  rw [Pool.spawn, List.getElem?_append, List.getElem?_singleton] at hw
  split_ifs at hw with hlt hlast
  · exact Or.inl hw
  · exact Or.inr ⟨by omega, (Option.some.inj hw).symm⟩

theorem Listed.spawn (h : p.Listed) : p.spawn.Listed := by
  -- the number of the new worker comes behind all that are on the lists
  have hnew : p.workers.length ∉ p.live ++ p.retired := fun hi =>
    Nat.lt_irrefl _ (h.spawned _ hi)
  have hperm : (p.workers.length :: (p.live ++ p.retired)).Perm
      (p.spawn.live ++ p.spawn.retired) := by
    rw [Pool.spawn, List.append_assoc, List.singleton_append]
    exact List.perm_middle.symm
  refine ⟨fun i hi => ?_, hperm.nodup_iff.1 (List.nodup_cons.2 ⟨hnew, h.nodup⟩),
    fun hw hexited => hperm.mem_iff.1 ?_⟩
  · rw [Pool.spawn, List.length_append, List.length_singleton]
    rcases List.mem_cons.1 (hperm.mem_iff.2 hi) with rfl | hi
    · exact Nat.lt_succ_self _
    · exact Nat.lt_succ_of_lt (h.spawned i hi)
  · rcases of_getElem?_spawn hw with hw | ⟨rfl, -⟩
    · exact List.mem_cons_of_mem _ (h.listed hw hexited)
    · exact List.mem_cons_self

theorem Roster.spawn (h : p.Roster) (hopen : p.isShutdown = false) : p.spawn.Roster := by
  have hstill : p.spawn.isShutdown = false := hopen
  refine ⟨h.toListed.spawn, fun {i w} hi hw => ?_, fun {i w} hi hw => ?_, fun hend => ?_,
    fun hend => ?_⟩
  · rcases of_getElem?_spawn hw with hw | ⟨-, rfl⟩
    · have hlt := (List.getElem?_eq_some_iff.1 hw).1
      have hold := (List.mem_append.1 hi).resolve_right fun hlast =>
        absurd (List.mem_singleton.1 hlast) (Nat.ne_of_lt hlt)
      exact h.live hold hw
    · rfl
  · rcases of_getElem?_spawn hw with hw | ⟨rfl, -⟩
    · exact h.retired hi hw
    · exact absurd (h.spawned _ (List.mem_append_right _ hi)) (Nat.lt_irrefl _)
  · rw [hstill] at hend
    cases hend
  · rw [hstill] at hend
    cases hend

theorem Roster.grow (h : p.Roster) (hopen : p.isShutdown = false) (n : Nat) :
    (p.grow n).Roster := by
  induction n generalizing p with
  | zero => exact h
  | succ n ih => exact ih (h.spawn hopen) hopen

/-- A worker of a pool some of whose workers were changed. -/
theorem of_getElem?_modifyAll {f : Worker A → Worker A} (hf : ∀ w, f (f w) = f w) {is : List Nat}
    {i : Nat} {w : Worker A} (hw : (p.modifyAll is f).workers[i]? = some w) :
    ∃ v, p.workers[i]? = some v ∧ w = if i ∈ is then f v else v := by
  rw [getElem?_modifyAll hf] at hw
  obtain ⟨v, hv, heq⟩ := Option.map_eq_some_iff.1 hw
  exact ⟨v, hv, heq.symm⟩

/-- The lists name the same workers after a shrinking. -/
theorem perm_shrink (p : Pool A) (n : Nat) :
    ((p.shrink n).live ++ (p.shrink n).retired).Perm (p.live ++ p.retired) := by
  have hgone : (p.retired ++ (p.live.drop n).reverse).Perm (p.live.drop n ++ p.retired) :=
    ((List.reverse_perm _).append_left _).trans List.perm_append_comm
  have hlists := hgone.append_left (p.live.take n)
  rw [← List.append_assoc (p.live.take n) (p.live.drop n), List.take_append_drop] at hlists
  simpa [Pool.shrink] using hlists

/-- Who has to go is cancelled and retires; the others stay as they are. -/
theorem Roster.shrink (h : p.Roster) (hopen : p.isShutdown = false) (n : Nat) :
    (p.shrink n).Roster := by
  have hstill : (p.shrink n).isShutdown = false := by simp [Pool.shrink, hopen]
  have hworker : ∀ {i : Nat} {w : Worker A}, (p.shrink n).workers[i]? = some w →
      ∃ v, p.workers[i]? = some v ∧
        w = if i ∈ (p.live.drop n).reverse then v.withGate Gate.cancel else v :=
    fun hw => of_getElem?_modifyAll (f := Worker.withGate Gate.cancel) (fun _ => rfl) hw
  have hsplit := List.nodup_append'.1 ((p.live.take_append_drop n).symm ▸
    (List.nodup_append'.1 h.nodup).1)
  refine ⟨h.toListed.congr (p.perm_shrink n) (length_modifyAll ..) fun i w hw => ?_,
    fun {i w} hi hw => ?_, fun {i w} hi hw => ?_, fun hend => ?_, fun hend => ?_⟩
  · obtain ⟨v, hv, rfl⟩ := hworker hw
    refine ⟨v, hv, fun hexited => ?_⟩
    split_ifs at hexited <;> exact hexited
  · obtain ⟨v, hv, rfl⟩ := hworker hw
    have hstays : i ∉ (p.live.drop n).reverse := fun hgone =>
      hsplit.2.2 hi (List.mem_reverse.1 hgone)
    rw [if_neg hstays, h.live (List.mem_of_mem_take hi) hv]
    simp [Pool.shrink]
  · obtain ⟨v, hv, rfl⟩ := hworker hw
    split_ifs with hgone
    · rfl
    · exact h.retired ((List.mem_append.1 hi).resolve_right hgone) hv
  · rw [hstill] at hend
    cases hend
  · rw [hstill] at hend
    cases hend

theorem Roster.resizeTo (h : p.Roster) (hopen : p.isShutdown = false) (n : Nat) :
    (p.resizeTo n).Roster := by
  have hgrown : (p.tidy.grow (n - p.size)).isShutdown = false := by
    rw [grow_eq]
    exact hopen
  exact (h.tidy.grow hopen _).shrink hgrown n

theorem Roster.resize (h : p.Roster) (threadCount : Count) : (p.resize threadCount).Roster := by
  unfold Pool.resize
  split
  · exact h
  next hopen => exact h.resizeTo (eq_false_of_ne_true hopen) _

theorem Roster.start (h : p.Roster) (threadCount : Count) : (p.start threadCount).Roster := by
  unfold Pool.start
  split
  next hstart =>
    have hopen : p.isShutdown = false := by
      simpa using (Bool.and_eq_true_iff.1 hstart).2
    have hstarted : Pool.Roster { p with started := true } := { h with }
    exact hstarted.resizeTo hopen _
  · exact h

/-! ### Signals -/

/-- Those who serve the queue are told something that does not concern their cancellation. -/
theorem Roster.signal (h : p.Roster) {f : Gate → Gate} (hf : ∀ g, f (f g) = f g) {paused : Bool}
    (horders : ∀ g, g.orders = (p.paused, false) → (f g).orders = (paused, false))
    (hcancelled : ∀ g, (f g).cancelled = g.cancelled) :
    ({ p with paused }.modifyAll p.live (Worker.withGate f)).Roster := by
  have hidem : ∀ w : Worker A, (w.withGate f).withGate f = w.withGate f := fun w => by
    simp [Worker.withGate, hf]
  have hworker : ∀ {i : Nat} {w : Worker A},
      ({ p with paused }.modifyAll p.live (Worker.withGate f)).workers[i]? = some w →
      ∃ v, p.workers[i]? = some v ∧ w.exited = v.exited ∧ w.aborted = v.aborted ∧
        w.gate.cancelled = v.gate.cancelled ∧ (i ∈ p.live → w.gate = f v.gate) := by
    intro i w hw
    obtain ⟨v, hv, rfl⟩ := of_getElem?_modifyAll (p := { p with paused }) hidem hw
    refine ⟨v, hv, ?_⟩
    split_ifs with hi
    · exact ⟨rfl, rfl, hcancelled _, fun _ => rfl⟩
    · exact ⟨rfl, rfl, rfl, fun hi' => absurd hi' hi⟩
  refine ⟨h.toListed.congr (by simp) (length_modifyAll ..) fun i w hw => ?_,
    fun {i w} hi hw => ?_, fun {i w} hi hw => ?_, fun hend => ?_, fun hend {i w} hw => ?_⟩
  · obtain ⟨v, hv, heq, -⟩ := hworker hw
    exact ⟨v, hv, fun hexited => heq ▸ hexited⟩
  · obtain ⟨v, hv, -, -, -, hgate⟩ := hworker hw
    rw [live_modifyAll] at hi
    rw [hgate hi, paused_modifyAll]
    exact horders _ (h.live hi hv)
  · obtain ⟨v, hv, -, -, hsame, -⟩ := hworker hw
    rw [retired_modifyAll] at hi
    rw [hsame]
    exact h.retired hi hv
  · rw [isShutdown_modifyAll] at hend
    rw [live_modifyAll]
    exact h.idle hend
  · obtain ⟨v, hv, heq, haborted, hsame, -⟩ := hworker hw
    rw [isShutdown_modifyAll] at hend
    rw [hsame, haborted, heq]
    exact h.ended hend hv

theorem Roster.pause (h : p.Roster) : p.pause.Roster :=
  h.signal (f := Gate.pause) (fun _ => rfl) (fun g hg => by simp_all [Gate.orders, Gate.pause])
    fun _ => rfl

theorem Roster.unpause (h : p.Roster) : p.unpause.Roster :=
  h.signal (f := Gate.unpause) (fun _ => rfl)
    (fun g hg => by simp_all [Gate.orders, Gate.unpause]) fun _ => rfl

theorem Roster.wakeup (h : p.Roster) : p.wakeup.Roster :=
  h.signal (f := Gate.requestWake) (fun _ => rfl) (fun _ hg => hg) fun _ => rfl

/-! ### The end -/

/-- When nobody serves the queue any more, everybody who has not exited has retired. So it is
enough to abort those. -/
theorem Roster.abortAll (h : p.Roster) (hidle : p.live = []) :
    Pool.Roster
      (Pool.modifyAll { p.cancelAll with isShutdown := true, observer := none } p.retired
        Worker.abort) := by
  have hworker : ∀ {i : Nat} {w : Worker A},
      (Pool.modifyAll { p.cancelAll with isShutdown := true, observer := none } p.retired
        Worker.abort).workers[i]? = some w →
      ∃ v, p.workers[i]? = some v ∧ w.exited = v.exited ∧ w.gate.cancelled = true ∧
        (i ∈ p.retired → w.aborted = true) := by
    intro i w hw
    obtain ⟨u, hu, rfl⟩ := of_getElem?_modifyAll (f := Worker.abort) (fun _ => rfl) hw
    rw [Pool.cancelAll, List.getElem?_map] at hu
    obtain ⟨v, hv, rfl⟩ := Option.map_eq_some_iff.1 hu
    refine ⟨v, hv, ?_⟩
    split_ifs with hi
    · exact ⟨rfl, rfl, fun _ => rfl⟩
    · exact ⟨rfl, rfl, fun hi' => absurd hi' hi⟩
  refine ⟨h.toListed.congr (by simp [Pool.cancelAll]) (by simp [Pool.cancelAll])
    fun i w hw => ?_, fun {i w} hi hw => ?_, fun {i w} hi hw => ?_, fun _ => ?_,
    fun _ {i w} hw => ?_⟩
  · obtain ⟨v, hv, heq, -⟩ := hworker hw
    exact ⟨v, hv, fun hexited => heq ▸ hexited⟩
  · rw [live_modifyAll] at hi
    exact absurd hi (by simp [Pool.cancelAll, hidle])
  · obtain ⟨v, hv, -, hcancelled, -⟩ := hworker hw
    exact hcancelled
  · rw [live_modifyAll]
    exact hidle
  · obtain ⟨v, hv, heq, hcancelled, haborted⟩ := hworker hw
    refine ⟨hcancelled, fun hexited => ?_⟩
    have hlisted := h.listed hv (heq ▸ hexited)
    rw [hidle, List.nil_append] at hlisted
    exact haborted hlisted

theorem Roster.shutdown (h : p.Roster) : p.shutdown.Roster := by
  unfold Pool.shutdown
  split
  · exact h
  next hopen =>
    refine (h.resizeTo (eq_false_of_ne_true hopen) 0).abortAll ?_
    rw [live_resizeTo, if_pos (Nat.zero_le _), List.take_zero]

/-- What a worker does changes nothing on the lists. -/
theorem Roster.act (h : p.Roster) {i : Nat} {w w' : Worker A} (hw : p.workers[i]? = some w)
    (hexited : w.exited = false) (hact : w.Acts w') : (p.modify i fun _ => w').Roster := by
  have hworker : ∀ {j : Nat} {v : Worker A}, (p.modify i fun _ => w').workers[j]? = some v →
      ∃ u, p.workers[j]? = some u ∧ v.gate.orders = u.gate.orders ∧ v.aborted = u.aborted ∧
        (v.exited = false → u.exited = false) := by
    intro j v hv
    rw [Pool.modify, List.getElem?_modify] at hv
    obtain ⟨u, hu, heq⟩ := Option.map_eq_some_iff.1 hv
    refine ⟨u, hu, ?_⟩
    split_ifs at heq with hij
    · subst hij heq
      rw [hw] at hu
      cases hu
      exact ⟨hact.keeps.1, hact.keeps.2, fun _ => hexited⟩
    · subst heq
      exact ⟨rfl, rfl, id⟩
  have hcancelled : ∀ {g g' : Gate}, g.orders = g'.orders → g.cancelled = g'.cancelled :=
    fun heq => congrArg Prod.snd heq
  refine ⟨h.toListed.congr (.refl _) (List.length_modify ..) fun j v hv => ?_,
    fun {j v} hj hv => ?_, fun {j v} hj hv => ?_, h.idle, fun hend {j v} hv => ?_⟩
  · obtain ⟨u, hu, -, -, hstays⟩ := hworker hv
    exact ⟨u, hu, hstays⟩
  · obtain ⟨u, hu, horders, -⟩ := hworker hv
    rw [horders]
    exact h.live hj hu
  · obtain ⟨u, hu, horders, -⟩ := hworker hv
    rw [hcancelled horders]
    exact h.retired hj hu
  · obtain ⟨u, hu, horders, haborted, hstays⟩ := hworker hv
    rw [hcancelled horders, haborted]
    exact (h.ended hend hu).imp_right fun habort hexited => habort (hstays hexited)

/-! ### All steps -/

/-- Every step keeps the lists in order. -/
theorem Roster.step (h : p.Roster) (hstep : p.Step p') : p'.Roster := by
  cases hstep with
  | start threadCount => exact h.start threadCount
  | follow observer => exact { h with }
  | resize threadCount => exact h.resize threadCount
  | pause => exact h.pause
  | unpause => exact h.unpause
  | wakeup => exact h.wakeup
  | shutdown => exact h.shutdown
  | act hw hexited hact => exact h.act hw hexited hact

theorem Roster.steps (h : p.Roster) (hsteps : Relation.ReflTransGen Step p p') : p'.Roster := by
  induction hsteps with
  | refl => exact h
  | tail _ hstep ih => exact ih.step hstep

end Pool

end DurableQueue
