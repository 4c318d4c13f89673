import DurableQueue.Proofs.Service.Agreement

/-!
# Queues that share settings agree with them

Queues may hold the same cell of processing settings, and then the pools of all of them follow it. A
queue registers its own pools with the cell and removes the registrations of its own pools again, so
that those of the other queues stay.

* `Spares` says that a cell has changed without a difference to the pools of other queues. A queue
  spares the others when it is started, shut down or observed (`Follows.spares_start` and its kin),
  and a queue that is spared stays steady (`Steady.share`);
* `Service.Steady` is the invariant: all queues in service are steady, and what is registered with
  any cell is in order. There is one lemma for each operation of a service.
-/

namespace DurableQueue

variable {A : Signature} {ω υ : Type}

/-! ### What others see of a cell -/

/-- A cell of processing settings has changed without a difference to other queues than one. -/
structure Spares (queue : QueueId) (c c' : Cell ProcessingSettings (ProcessingObserver ω)) :
    Prop where
  value : c'.value = c.value
  listed : ∀ other, other ≠ queue → ∀ id shard,
    (id, .pool other shard) ∈ c'.observers ↔ (id, .pool other shard) ∈ c.observers

namespace Spares

variable {queue : QueueId} {c c' c'' : Cell ProcessingSettings (ProcessingObserver ω)}

theorem refl (queue : QueueId) (c : Cell ProcessingSettings (ProcessingObserver ω)) :
    Spares queue c c := ⟨rfl, fun _ _ _ _ => .rfl⟩

theorem trans (h : Spares queue c c') (h' : Spares queue c' c'') : Spares queue c c'' :=
  ⟨h'.value.trans h.value,
    fun other hne id shard => (h'.listed other hne id shard).trans (h.listed other hne id shard)⟩

theorem register {o : ProcessingObserver ω} (ho : ∀ other shard, o = .pool other shard →
    other = queue) : Spares queue c (c.register o).2 := by
  refine ⟨rfl, fun other hne id shard => ?_⟩
  rw [Cell.mem_register]
  exact or_iff_left fun h => hne (ho other shard h.2.symm)

theorem unregister (hc : c.Numbered) {id : ObserverId} {shard : ShardId}
    (hid : (id, .pool queue shard) ∈ c.observers) : Spares queue c (c.unregister id).2 := by
  refine ⟨rfl, fun other hne id' shard' => ?_⟩
  rw [Cell.mem_unregister]
  refine and_iff_left_of_imp fun hmem heq => hne ?_
  subst heq
  exact (ProcessingObserver.pool.inj (hc.unique _ _ _ hmem hid)).1

end Spares

namespace LiveQueue

variable {q : LiveQueue A ω}

theorem spares_startPool (q : LiveQueue A ω) (shard : ShardId) :
    Spares q.queue q.processing (q.startPool shard).processing := by
  unfold startPool
  split
  · exact .register fun _ _ h => (ProcessingObserver.pool.inj h).1.symm
  · exact .refl _ _

theorem Follows.spares_shutdownPool (h : q.Follows) (shard : ShardId) :
    Spares q.queue q.processing (q.shutdownPool shard).processing := by
  simp only [LiveQueue.shutdownPool, LiveQueue.modifyPool]
  cases hid : (q.pools.get? shard).bind (·.observer) with
  | none => exact .refl _ _
  | some id =>
    obtain ⟨p, hp, hobserver⟩ := Option.bind_eq_some_iff.1 hid
    exact .unregister h.numbered (((h.goesBy shard p hp).listed id).2 hobserver)

/-- What spares the others shard by shard spares them on all shards. -/
theorem Follows.spares_foldl {f : LiveQueue A ω → ShardId → LiveQueue A ω}
    (hqueue : ∀ (q : LiveQueue A ω) shard, (f q shard).queue = q.queue)
    (hf : ∀ (q : LiveQueue A ω) shard, q.Follows →
      (f q shard).Follows ∧ Spares q.queue q.processing (f q shard).processing)
    (h : q.Follows) (shards : List ShardId) :
    Spares q.queue q.processing (shards.foldl f q).processing := by
  refine (List.foldlRecOn (motive := fun q' => q'.Follows ∧ q'.queue = q.queue ∧
    Spares q.queue q.processing q'.processing) shards f ⟨h, rfl, .refl _ _⟩
    fun q' hq' shard _ => ?_).2.2
  obtain ⟨hfollows, hname, hspares⟩ := hq'
  obtain ⟨hnext, hstep⟩ := hf q' shard hfollows
  rw [hname] at hstep
  exact ⟨hnext, (hqueue q' shard).trans hname, hspares.trans hstep⟩

theorem Follows.spares_start (h : q.Follows) : Spares q.queue q.processing q.start.processing :=
  h.spares_foldl (fun q shard => (stays_startPool q shard).queue)
    (fun q shard hq => ⟨hq.startPool shard, spares_startPool q shard⟩) q.pools.keys

theorem Follows.spares_shutdown (h : q.Follows) :
    Spares q.queue q.processing q.shutdown.processing :=
  h.spares_foldl (fun q shard => (stays_shutdownPool q shard).queue)
    (fun _ shard hq => ⟨hq.shutdownPool shard, hq.spares_shutdownPool shard⟩) q.pools.keys

theorem spares_observe (q : LiveQueue A ω) (group : Group) (o : ω) :
    Spares q.queue q.processing (q.observe group o).processing := by
  cases group with
  | processing => exact .register nofun
  | _ => exact .refl _ _

/-- A queue that is spared stays steady. -/
theorem Steady.share (h : q.Steady) {l : LiveSettings ω} {queue : QueueId}
    (hnumbered : l.processing.Numbered) (hspares : Spares queue q.processing l.processing)
    (hne : q.queue ≠ queue) : LiveQueue.Steady { q with toLiveSettings := l } where
  follows :=
    { mode := by
        show l.processing.value.mode = q.mode
        rw [hspares.value, h.follows.mode]
      numbered := hnumbered
      goesBy := fun shard p hp => (h.follows.goesBy shard p hp).withCell
        (by rw [hspares.value]) fun id => hspares.listed q.queue hne id shard
      roster := h.follows.roster }
  uniform := h.uniform.mono fun _ _ hs => hs

end LiveQueue

/-! ### Services -/

namespace Service

variable {s s' : Service A ω} {queue : QueueId}

/-- What is registered with a cell is in order: no number was given twice, and the pools are those
of queues in service. -/
structure Orderly (s : Service A ω) (c : Cell ProcessingSettings (ProcessingObserver ω)) :
    Prop where
  numbered : c.Numbered
  known : ∀ id queue shard, (id, .pool queue shard) ∈ c.observers →
    s.queues.contains queue = true

/-- All queues in service are steady. -/
structure Steady (s : Service A ω) : Prop where
  queues : s.Every fun _ q => q.Steady
  /-- The queues hold cells that were given out. -/
  held : ∀ queue q, s.queues.get? queue = some q → s.cells.Holds q.address
  cells : ∀ a, s.Orderly (s.cells.load a).processing

theorem Orderly.mono {c : Cell ProcessingSettings (ProcessingObserver ω)} (h : s.Orderly c)
    (hcontains : ∀ queue, s.queues.contains queue = true → s'.queues.contains queue = true) :
    s'.Orderly c :=
  ⟨h.numbered, fun id queue shard hmem => hcontains queue (h.known id queue shard hmem)⟩

theorem Orderly.congr {c c' : Cell ProcessingSettings (ProcessingObserver ω)} (h : s.Orderly c)
    (hobservers : c'.observers = c.observers) (hnext : c'.nextObserver = c.nextObserver) :
    s.Orderly c' := by
  refine ⟨⟨?_, ?_⟩, ?_⟩
  · rw [hobservers, hnext]
    exact h.numbered.lt
  · rw [hobservers]
    exact h.numbered.unique
  · rw [hobservers]
    exact h.known

/-- A change of one group registers nobody. -/
theorem orderly_setGroup {judge : Judge ω υ} {a b : Addresses} {new : GroupValue} {u : υ}
    (h : ∀ a, s.Orderly (s.cells.load a).processing) :
    s.Orderly ((s.setGroup judge a new u).2.1.cells.load b).processing := by
  rw [cells_setGroup, Cells.load_store_take]
  split
  next heq =>
    cases new with
    | processing v =>
      show s.Orderly ((s.cells.load a).processing.set (tellProcessing judge (resizePool a)) v
        (s.entries, u)).2.1
      rcases Cell.set_cell (tellProcessing judge (resizePool a)) (s.cells.load a).processing v
        (s.entries, u) with hcell | hcell
      · rw [hcell]
        exact h a
      · rw [hcell]
        exact (h a).congr rfl rfl
    | _ => exact h b
  next => exact h b

theorem orderly_new (value : ProcessingSettings) : s.Orderly (.new value) :=
  ⟨Cell.numbered_new value, fun _ _ _ h => nomatch h⟩

theorem steady_new (shards : List ShardId) : (new shards : Service A ω).Steady :=
  ⟨every_new shards, (fun _ _ h => nomatch h), fun _ => orderly_new _⟩

namespace Steady

/-- New settings were given out. -/
theorem create (h : s.Steady) (settings : QueueSettings) :
    { s with cells := (s.cells.create settings).2 }.Steady where
  queues := Every.withCells h.queues fun queue q hq hsteady => by
    rw [LiveQueue.see, Cells.load_create (h.held queue q hq)]
    exact hsteady.congr (congrArg LiveSettings.processing (entry_of_get? hq).2.2.symm) rfl
      ⟨rfl, rfl, rfl, rfl, rfl⟩
  held queue q hq := by
    rw [get?_withCells] at hq
    obtain ⟨before, hbefore, rfl⟩ := Option.map_eq_some_iff.1 hq
    exact (h.held queue before hbefore).create settings
  cells a := by
    have hcontains : ∀ queue, s.queues.contains queue = true →
        { s with cells := (s.cells.create settings).2 }.queues.contains queue = true :=
      fun queue hqueue => by simpa using hqueue
    show Service.Orderly _ (if a .processing = s.cells.next then (.new settings : LiveSettings ω)
      else s.cells.block (a .processing)).processing
    split
    · exact orderly_new _
    · exact (h.cells a).mono hcontains

/-- A queue is added whose settings were given out. -/
theorem add (h : s.Steady) {location : Location} {address : Addresses}
    (hnew : s.queues.contains location.queue = false) (haddress : s.cells.Holds address) :
    (s.add location address).Steady where
  queues := Every.add h.queues <| LiveQueue.steady_new (h.cells address).numbered
    fun id shard hmem => by
      have hknown := (h.cells address).known id location.queue shard hmem
      rw [hnew] at hknown
      cases hknown
  held queue q hq := by
    rw [get?_add] at hq
    split at hq
    · cases hq
      exact haddress
    · exact h.held queue q hq
  cells a := (h.cells a).mono fun queue hqueue => by
    rw [Dict.contains, get?_add]
    split
    · rfl
    · exact hqueue

theorem enroll (h : s.Steady) {location : Location} {address : Addresses}
    (haddress : s.cells.Holds address) (offers : ShardId → Bool) :
    (s.enroll location address offers).2.Steady := by
  rcases s.enroll_eq location address offers with heq | ⟨hnew, heq⟩
  · rw [heq]
    exact h
  · rw [heq]
    exact h.add hnew haddress

theorem register (h : s.Steady) {config : QueueConfig} {hasExecutor isNew : Bool}
    (hs : s.register config hasExecutor = .ok (isNew, s')) : s'.Steady := by
  rcases eq_of_register hs with rfl | ⟨hnew, rfl⟩
  · exact h
  · exact (h.create config.settings).add (by simpa using hnew)
      (Cells.holds_create config.settings)

/-- Of any cell, the others see what the queue that is changed spares them. -/
theorem spares_modify (h : s.Steady) {q : LiveQueue A ω} {f : LiveQueue A ω → LiveQueue A ω}
    (hq : s.queues.get? queue = some q) (hstays : q.Stays (f q))
    (hnumbered : (f q).processing.Numbered)
    (hspares : Spares q.queue q.processing (f q).processing) (b : Addresses) :
    ((s.modify queue f).cells.load b).processing.Numbered ∧
      Spares q.queue (s.cells.load b).processing
        ((s.modify queue f).cells.load b).processing := by
  obtain ⟨-, -, hown⟩ := entry_of_get? hq
  rw [cells_modify hq hstays, Cells.load_store]
  show Cell.Numbered (if b .processing = q.address .processing then (f q).processing
    else (s.cells.load b).processing) ∧ Spares q.queue (s.cells.load b).processing
      (if b .processing = q.address .processing then (f q).processing
        else (s.cells.load b).processing)
  split
  next hb =>
    have hsame : (s.cells.load b).processing = q.processing := by
      rw [hown, ← s.cells.take_load hb]
      rfl
    rw [hsame]
    exact ⟨hnumbered, hspares⟩
  next => exact ⟨(h.cells b).numbered, .refl _ _⟩

/-- A queue that is changed holds the cells that it held, and so do the others. -/
theorem held_modify (h : s.Steady) {q : LiveQueue A ω} {f : LiveQueue A ω → LiveQueue A ω}
    (hq : s.queues.get? queue = some q) (hstays : q.Stays (f q)) {other : QueueId}
    {q' : LiveQueue A ω} (hq' : (s.modify queue f).queues.get? other = some q') :
    (s.modify queue f).cells.Holds q'.address := by
  have hnext : (s.modify queue f).cells.next = s.cells.next := by
    rw [cells_modify hq hstays]
    rfl
  show ∀ g ∈ Group.all, q'.address g < (s.modify queue f).cells.next
  rw [hnext]
  rw [get?_modify hq hstays] at hq'
  split at hq'
  · cases hq'
    rw [hstays.address]
    exact h.held queue q hq
  · obtain ⟨before, hbefore, rfl⟩ := Option.map_eq_some_iff.1 hq'
    exact h.held other before hbefore

/-- A queue is changed and spares the others. -/
theorem modify (h : s.Steady) {f : LiveQueue A ω → LiveQueue A ω}
    (hstays : ∀ q : LiveQueue A ω, q.Stays (f q))
    (hf : ∀ q, q.Steady → (f q).Steady ∧ Spares q.queue q.processing (f q).processing) :
    (s.modify queue f).Steady := by
  cases hq : s.queues.get? queue with
  | none =>
    rw [modify_of_none hq]
    exact h
  | some q =>
    obtain ⟨hsteady, hspares⟩ := hf q (h.queues queue q hq)
    obtain ⟨-, hname, -⟩ := entry_of_get? hq
    have hcells := h.spares_modify hq (hstays q) hsteady.follows.numbered hspares
    refine ⟨?_, fun other q' hq' => h.held_modify hq (hstays q) hq',
      fun b => ⟨(hcells b).1, fun id other shard hmem => ?_⟩⟩
    · refine Every.modify h.queues hstays (fun _ hq' => (hf _ (h.queues queue _ hq')).1)
        fun other q' hne hq' => ?_
      obtain ⟨-, hother, hview⟩ := entry_of_get? hq'
      refine (h.queues other q' hq').share (hcells q'.address).1
        (?_ : Spares q.queue q'.processing _) (by rwa [hother, hname])
      rw [hview]
      exact (hcells q'.address).2
    · rw [contains_modify s queue hstays]
      by_cases heq : other = q.queue
      · rw [heq, hname, Dict.contains, hq]
        rfl
      · exact (h.cells b).known id other shard (((hcells b).2.listed other heq id shard).1 hmem)

/-- A queue is changed that leaves its cells alone. -/
theorem modifyPool (h : s.Steady) {shard : ShardId} {f : Pool A → Pool A}
    (hf : ∀ q, s.queues.get? queue = some q → q.Steady → (q.modifyPool shard f).Steady) :
    (s.modifyPool queue shard f).Steady where
  queues := Every.modifyPool h.queues fun q hq => hf q hq (h.queues queue q hq)
  held other q' hq' := by
    rw [queues_modifyPool, Dict.get?_modify] at hq'
    split at hq'
    · obtain ⟨before, hbefore, rfl⟩ := Option.map_eq_some_iff.1 hq'
      exact h.held other before hbefore
    · exact h.held other q' hq'
  cells b := (h.cells b).mono fun other hother => by
    rw [queues_modifyPool, Dict.contains, Dict.get?_modify]
    split
    · rwa [Option.isSome_map]
    · exact hother

/-- One group is changed. The mode has to stay. -/
theorem setGroup (h : s.Steady) (judge : Judge ω υ) {a : Addresses} {new : GroupValue}
    (hmode : ∀ v, new = .processing v → v.mode = s.mode a) (u : υ) :
    (s.setGroup judge a new u).2.1.Steady where
  queues := Every.setGroup h.queues fun queue q hq heq => by
    have hsteady := h.queues queue q hq
    refine hsteady.setGroup judge (fun v hv => ?_) u
    subst hv
    rw [hmode v rfl, ← hsteady.follows.mode, ← mode_congr heq]
    exact mode_of_get? hq
  held queue q hq := by
    rw [get?_setGroup] at hq
    obtain ⟨before, hbefore, rfl⟩ := Option.map_eq_some_iff.1 hq
    split <;> exact h.held queue before hbefore
  cells b := (orderly_setGroup h.cells).mono fun queue hqueue => by
    rw [contains_setGroup, hqueue]

/-- Configurations leave the mode. -/
theorem update (h : s.Steady) (judge : Judge ω υ) (configs : List GivenConfig) (u : υ) :
    (s.update judge configs u).2.1.Steady :=
  update_keeps (fun _ _ _ u hs hmode => hs.setGroup judge hmode u) h configs u

/-! ### Operations -/

theorem start (h : s.Steady) (queue : QueueId) : (s.modify queue LiveQueue.start).Steady :=
  h.modify LiveQueue.stays_start fun _ hq => ⟨hq.start, hq.follows.spares_start⟩

theorem pause (h : s.Steady) (queue : QueueId) : (s.modify queue LiveQueue.pause).Steady :=
  h.modify LiveQueue.stays_pause fun _ hq => ⟨hq.pause, .refl _ _⟩

theorem unpause (h : s.Steady) (queue : QueueId) : (s.modify queue LiveQueue.unpause).Steady :=
  h.modify LiveQueue.stays_unpause fun _ hq => ⟨hq.unpause, .refl _ _⟩

theorem shutdown (h : s.Steady) (queue : QueueId) : (s.modify queue LiveQueue.shutdown).Steady :=
  h.modify LiveQueue.stays_shutdown fun _ hq => ⟨hq.shutdown, hq.follows.spares_shutdown⟩

theorem observe (h : s.Steady) (queue : QueueId) (group : Group) (o : ω) :
    (s.modify queue fun q => q.observe group o).Steady :=
  h.modify (LiveQueue.stays_observe · group o) fun q hq =>
    ⟨hq.observe group o, q.spares_observe group o⟩

end Steady

end Service

end DurableQueue
