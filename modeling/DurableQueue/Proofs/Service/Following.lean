import DurableQueue.Proofs.Service.Pools

/-!
# Pools that follow their settings

From its start to its shutdown a pool has as many workers as the settings of its queue say. It
follows them as an observer of their cell, and so it also follows a change back when somebody else
has refused the change.

* `Pool.Status` is how far a pool has come;
* `Cell.Numbered` says that a cell has given no number to two observers;
* `LiveQueue.Sized` is the size of a pool while its observers are told a change. What a pool was
  told last tells its size (`ToldSize.propose`), and being told a change back it is as it was
  (`Sized.replay`);
* `Pool.GoesBy` says that a pool has the right size and the right registration.
-/

namespace DurableQueue

variable {A : Signature} {ω υ : Type}

/-! ### The status of a pool -/

namespace Pool

/-- How far a pool has come. -/
structure Status where
  started : Bool
  paused : Bool
  isShutdown : Bool

namespace Status

/-- A pool of this status goes by the thread count. -/
def follows (s : Status) : Bool := s.started && !s.isShutdown

/-- The status after a start. -/
def start (s : Status) : Status := { s with started := s.started || !s.isShutdown }

/-- The status after a pause or its end. -/
def withPaused (paused : Bool) (s : Status) : Status := { s with paused }

/-- The status after a shutdown. -/
def shutdown (s : Status) : Status := { s with isShutdown := true }

theorem start_start (s : Status) : s.start.start = s.start := by
  rcases s with ⟨_ | _, _, _ | _⟩ <;> rfl

theorem shutdown_shutdown (s : Status) : s.shutdown.shutdown = s.shutdown := rfl

end Status

/-- How far a pool has come. -/
def status (p : Pool A) : Status := ⟨p.started, p.paused, p.isShutdown⟩

theorem status_eq_iff {p p' : Pool A} :
    p.status = p'.status ↔
      p.started = p'.started ∧ p.paused = p'.paused ∧ p.isShutdown = p'.isShutdown := by
  simp [status]

variable (p : Pool A)

@[simp] theorem status_modifyAll (is : List Nat) (f : Worker A → Worker A) :
    (p.modifyAll is f).status = p.status := by simp [status]

@[simp] theorem status_resizeTo (n : Nat) : (p.resizeTo n).status = p.status := by simp [status]

@[simp] theorem status_resize (threadCount : Count) : (p.resize threadCount).status = p.status := by
  unfold resize
  split <;> simp

theorem status_start (threadCount : Count) : (p.start threadCount).status = p.status.start := by
  unfold start
  split
  next h =>
    simp only [canStart, Bool.and_eq_true_iff, Bool.not_eq_true'] at h
    simp [status, Status.start, h]
  next h =>
    simp only [canStart, Bool.and_eq_true_iff, Bool.not_eq_true', not_and, Bool.not_eq_false] at h
    cases hstarted : p.started with
    | false => simp [status, Status.start, h hstarted, hstarted]
    | true => simp [status, Status.start, hstarted]

theorem status_pause : p.pause.status = p.status.withPaused true := status_modifyAll ..

theorem status_unpause : p.unpause.status = p.status.withPaused false := status_modifyAll ..

theorem status_shutdown : p.shutdown.status = p.status.shutdown := by
  unfold shutdown
  split
  next h => simp [status, Status.shutdown, h]
  · simp [status, Status.shutdown, cancelAll]

@[simp] theorem observer_resize (threadCount : Count) :
    (p.resize threadCount).observer = p.observer := by
  unfold resize
  split <;> simp

theorem isShutdown_of_follows {p : Pool A} (h : p.status.follows = true) :
    p.isShutdown = false := by
  simpa [Status.follows, status] using (Bool.and_eq_true_iff.1 h).2

theorem size_resize (h : p.isShutdown = false) (threadCount : Count) :
    (p.resize threadCount).size = threadCount.val := by
  rw [resize_of_open h, size_resizeTo]

end Pool

/-! ### Registrations -/

namespace Cell

variable {α : Type}

/-- No number was given to two observers. -/
structure Numbered (c : Cell α ω) : Prop where
  lt : ∀ id o, (id, o) ∈ c.observers → id < c.nextObserver
  unique : ∀ id o o', (id, o) ∈ c.observers → (id, o') ∈ c.observers → o = o'

variable {c : Cell α ω}

theorem numbered_new (value : α) : (new value : Cell α ω).Numbered :=
  ⟨(fun _ _ h => nomatch h), (fun _ _ _ h => nomatch h)⟩

theorem mem_register {o o' : ω} {id : ObserverId} :
    (id, o') ∈ (c.register o).2.observers ↔
      (id, o') ∈ c.observers ∨ id = c.nextObserver ∧ o' = o := by
  simp [register]

theorem mem_unregister {id id' : ObserverId} {o : ω} :
    (id', o) ∈ (c.unregister id).2.observers ↔ (id', o) ∈ c.observers ∧ id' ≠ id := by
  simp [unregister]

theorem Numbered.register (h : c.Numbered) (o : ω) : (c.register o).2.Numbered where
  lt id o' hmem := by
    rcases mem_register.1 hmem with hmem | ⟨rfl, -⟩
    · exact Nat.lt_succ_of_lt (h.lt _ _ hmem)
    · exact Nat.lt_succ_self _
  unique id o₁ o₂ hmem hmem' := by
    -- the next number is above all that were given
    have hnext : ∀ o', (c.nextObserver, o') ∉ c.observers := fun o' hmem =>
      Nat.lt_irrefl _ (h.lt _ o' hmem)
    rcases mem_register.1 hmem with hmem | ⟨rfl, rfl⟩
    · rcases mem_register.1 hmem' with hmem' | ⟨rfl, -⟩
      · exact h.unique _ _ _ hmem hmem'
      · exact absurd hmem (hnext _)
    · rcases mem_register.1 hmem' with hmem' | ⟨-, rfl⟩
      · exact absurd hmem' (hnext _)
      · rfl

theorem Numbered.unregister (h : c.Numbered) (id : ObserverId) : (c.unregister id).2.Numbered where
  lt id' o hmem := h.lt id' o (mem_unregister.1 hmem).1
  unique id' o o' hmem hmem' :=
    h.unique id' o o' (mem_unregister.1 hmem).1 (mem_unregister.1 hmem').1

end Cell

/-! ### Sizes under a change -/

namespace LiveQueue

/-- The pool of a shard, if it goes by the settings, has the size that they say. -/
def Sized (shard : ShardId) (settings : ProcessingSettings) (pools : Dict (Pool A)) : Prop :=
  ∀ p, pools.get? shard = some p → p.status.follows = true → p.size = settings.threadCount.val

variable {judge : Judge ω υ} {old new : ProcessingSettings} {queue : QueueId} {shard : ShardId}
  {pools pools' : Dict (Pool A)} {o : ProcessingObserver ω} {u : υ}

theorem Sized.congr (h : Sized shard old pools) (hget : pools'.get? shard = pools.get? shard) :
    Sized shard old pools' := by
  rw [Sized, hget]
  exact h

/-- Whoever else is told a change, the pool of a shard stays. -/
theorem get?_tell (ho : o ≠ .pool queue shard) :
    (tellProcessing judge (resizeOwn queue) o old new (pools, u)).2.1.get? shard =
      pools.get? shard := by
  cases o with
  | other o => rfl
  | pool queue' shard' =>
    simp only [tellProcessing, resizeOwn]
    split
    · rfl
    · split
      next heq =>
        have hne : shard ≠ shard' := fun hshard => ho (by rw [heq, hshard])
        rw [Dict.get?_modify, if_neg hne]
      next => rfl

/-- A pool that is told a change has the new size, whichever of the sizes it had before. -/
theorem sized_tell (judge : Judge ω υ) (h : Sized shard old pools ∨ Sized shard new pools) :
    Sized shard new
      (tellProcessing judge (resizeOwn queue) (.pool queue shard) old new (pools, u)).2.1 := by
  simp only [tellProcessing, resizeOwn, if_pos]
  split
  next heq =>
    rcases h with h | h
    · rw [Sized, ← heq]
      exact h
    · exact h
  · intro p hp hfollows
    rw [Dict.get?_modify, if_pos rfl] at hp
    obtain ⟨before, -, rfl⟩ := Option.map_eq_some_iff.1 hp
    rw [Pool.status_resize] at hfollows
    exact before.size_resize (Pool.isShutdown_of_follows hfollows) _

/-- When those who were told a change are told it back, the pool of a shard has the old size. -/
theorem Sized.replay {os : List (ProcessingObserver ω)}
    (h : Sized shard old pools ∨ .pool queue shard ∈ os ∧ Sized shard new pools) :
    Sized shard old
      (Cell.replay (tellProcessing judge (resizeOwn queue)) old new os (pools, u)).1 := by
  induction os generalizing pools u with
  | nil => exact h.resolve_right fun hos => nomatch hos.1
  | cons o os ih =>
    refine ih (u := (tellProcessing judge (resizeOwn queue) o new old (pools, u)).2.2) ?_
    by_cases ho : o = .pool queue shard
    · subst ho
      exact .inl (sized_tell judge (h.imp_right And.right).symm)
    · refine h.imp (fun hold => hold.congr (get?_tell ho)) fun ⟨hos, hnew⟩ => ?_
      exact ⟨(List.mem_cons.1 hos).resolve_left (Ne.symm ho), hnew.congr (get?_tell ho)⟩

/-- The pool of a shard has the size that it was told last. -/
def ToldSize (queue : QueueId) (shard : ShardId) (old new : ProcessingSettings)
    (told : List (ProcessingObserver ω)) (pools : Dict (Pool A)) : Prop :=
  .pool queue shard ∈ told ∧ Sized shard new pools ∨
    .pool queue shard ∉ told ∧ Sized shard old pools

theorem ToldSize.tell (judge : Judge ω υ) (u : υ) {told : List (ProcessingObserver ω)}
    (h : ToldSize queue shard old new told pools) :
    ToldSize queue shard old new (o :: told)
      (tellProcessing judge (resizeOwn queue) o old new (pools, u)).2.1 := by
  by_cases ho : o = .pool queue shard
  · subst ho
    exact .inl ⟨List.mem_cons_self, sized_tell judge (h.imp And.right And.right).symm⟩
  · refine h.imp (fun ⟨htold, hnew⟩ => ?_) fun ⟨htold, hold⟩ => ?_
    · exact ⟨List.mem_cons_of_mem _ htold, hnew.congr (get?_tell ho)⟩
    · refine ⟨fun hmem => ?_, hold.congr (get?_tell ho)⟩
      exact htold ((List.mem_cons.1 hmem).resolve_left (Ne.symm ho))

theorem ToldSize.congr {told told' : List (ProcessingObserver ω)}
    (h : ToldSize queue shard old new told pools) (hmem : ∀ o, o ∈ told ↔ o ∈ told') :
    ToldSize queue shard old new told' pools := by
  rw [ToldSize, ← hmem]
  exact h

/-- A change that nobody refuses gives the pool of a shard the new size, if it is told of it. A
change that is refused leaves it with the old one. -/
theorem ToldSize.propose (judge : Judge ω υ) (u : υ) {os accepted : List (ProcessingObserver ω)}
    (h : ToldSize queue shard old new accepted pools) {answer : Except SettingError Unit}
    {t : Dict (Pool A) × υ}
    (ht : Cell.propose (tellProcessing judge (resizeOwn queue)) old new os accepted (pools, u) =
      (answer, t)) :
    match answer with
    | .ok () => ToldSize queue shard old new (os ++ accepted) t.1
    | .error _ => Sized shard old t.1 := by
  induction os generalizing accepted pools u with
  | nil =>
    cases ht
    exact h
  | cons o os ih =>
    have htold := h.tell judge u (o := o)
    rw [Cell.propose] at ht
    split at ht
    next t' heq =>
      rw [heq] at htold
      have hrest := ih t'.2 htold ht
      cases answer with
      | ok => exact hrest.congr fun o' => by simp [or_left_comm]
      | error e => exact hrest
    next e t' heq =>
      cases ht
      rw [heq] at htold
      -- a pool never refuses
      cases o with
      | pool queue' shard' => cases heq
      | other o =>
        refine Sized.replay (u := t'.2) ?_
        rcases htold with ⟨hmem, hnew⟩ | ⟨-, hold⟩
        · exact .inr ⟨(List.mem_cons.1 hmem).resolve_left (by simp), hnew⟩
        · exact .inl hold

end LiveQueue

/-! ### Pools and their cell -/

namespace Pool

/-- A pool has as many workers as the settings in a cell say while it follows them, and is
registered with the cell exactly as long. -/
structure GoesBy (p : Pool A) (cell : Cell ProcessingSettings (ProcessingObserver ω))
    (queue : QueueId) (shard : ShardId) : Prop where
  size : p.size = if p.status.follows then cell.value.threadCount.val else 0
  observer : p.observer.isSome = p.status.follows
  listed : ∀ id, (id, .pool queue shard) ∈ cell.observers ↔ p.observer = some id

variable {p p' : Pool A} {cell cell' : Cell ProcessingSettings (ProcessingObserver ω)}
  {queue : QueueId} {shard : ShardId}

/-- A new pool that is not registered with the cell. -/
theorem goesBy_new (h : ∀ id, (id, .pool queue shard) ∉ cell.observers) :
    (new : Pool A).GoesBy cell queue shard :=
  ⟨rfl, rfl, fun id => iff_of_false (h id) nofun⟩

theorem GoesBy.congr (h : p.GoesBy cell queue shard) (hsize : p'.size = p.size)
    (hfollows : p'.status.follows = p.status.follows) (hobserver : p'.observer = p.observer) :
    p'.GoesBy cell queue shard where
  size := by rw [hsize, hfollows, h.size]
  observer := by rw [hobserver, hfollows, h.observer]
  listed id := by rw [hobserver, h.listed]

/-- The cell has got or lost another observer. -/
theorem GoesBy.withCell (h : p.GoesBy cell queue shard)
    (hvalue : cell'.value.threadCount = cell.value.threadCount)
    (hlisted : ∀ id, (id, .pool queue shard) ∈ cell'.observers ↔
      (id, .pool queue shard) ∈ cell.observers) :
    p.GoesBy cell' queue shard where
  size := by rw [hvalue, h.size]
  observer := h.observer
  listed id := by rw [hlisted, h.listed]

theorem GoesBy.register (h : p.GoesBy cell queue shard) {o : ProcessingObserver ω}
    (ho : o ≠ .pool queue shard) : p.GoesBy (cell.register o).2 queue shard := by
  refine h.withCell rfl fun id => ?_
  rw [Cell.mem_register]
  exact or_iff_left fun heq => ho heq.2.symm

/-- The registration of somebody else is removed. -/
theorem GoesBy.unregister (h : p.GoesBy cell queue shard) (hcell : cell.Numbered) {id : ObserverId}
    {o : ProcessingObserver ω} (hid : (id, o) ∈ cell.observers) (hne : o ≠ .pool queue shard) :
    p.GoesBy (cell.unregister id).2 queue shard := by
  refine h.withCell rfl fun id' => ?_
  rw [Cell.mem_unregister]
  refine and_iff_left_of_imp fun hmem heq => hne ?_
  subst heq
  cases hcell.unique _ _ _ hid hmem
  rfl

/-- A pool is not registered while it does not follow the settings. -/
theorem GoesBy.observer_eq_none (h : p.GoesBy cell queue shard)
    (hfollows : p.status.follows = false) : p.observer = none := by
  rw [← Option.isNone_iff_eq_none, ← Option.not_isSome, h.observer, hfollows]
  rfl

theorem GoesBy.start (h : p.GoesBy cell queue shard) (hstart : p.canStart = true) :
    Pool.GoesBy
      { p.start cell.value.threadCount with observer := some (cell.register (.pool queue shard)).1 }
      (cell.register (.pool queue shard)).2 queue shard := by
  have hopen : p.started = false ∧ p.isShutdown = false := by
    simpa [canStart] using hstart
  have hfollows : (p.start cell.value.threadCount).status.follows = true := by
    rw [status_start]
    simp [status, Status.start, Status.follows, hopen]
  have hbefore : p.observer = none :=
    h.observer_eq_none (by simp [status, Status.follows, hopen])
  refine ⟨?_, hfollows.symm, fun id => ?_⟩
  · show (p.start cell.value.threadCount).size =
      if (p.start cell.value.threadCount).status.follows then cell.value.threadCount.val else 0
    rw [if_pos hfollows, Pool.start, if_pos hstart, size_resizeTo]
  · rw [Cell.mem_register, h.listed, hbefore]
    simp [Cell.register, eq_comm]

/-- A pool that is shut down is no longer registered, and has no workers. -/
theorem GoesBy.shutdown (h : p.GoesBy cell queue shard)
    (hcell : ∀ id, (id, .pool queue shard) ∉ cell'.observers) :
    p.shutdown.GoesBy cell' queue shard := by
  have hfollows : p.shutdown.status.follows = false := by
    rw [status_shutdown]
    simp [Status.shutdown, Status.follows]
  have hended : p.shutdown.size = 0 ∧ p.shutdown.observer = none := by
    unfold Pool.shutdown
    split
    next hend =>
      have hstill : p.status.follows = false := by simp [status, Status.follows, hend]
      rw [h.size, hstill]
      exact ⟨rfl, h.observer_eq_none hstill⟩
    · exact ⟨by simp [Pool.size, cancelAll, live_resizeTo], by simp⟩
  refine ⟨?_, ?_, fun id => iff_of_false (hcell id) ?_⟩
  · rw [hfollows]
    exact hended.1
  · rw [hfollows, hended.2]
    rfl
  · rw [hended.2]
    exact (Option.some_ne_none id).symm

end Pool

end DurableQueue
