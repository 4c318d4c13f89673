import DurableQueue.Proofs.Service.Every

/-!
# The loops of workers in service

The operations of a service start workers, pause, wake and cancel them, but leave alone what a
worker is doing. Only its own turn does that.

* `EveryLoop` says of a pool, a queue or a service that the loop of each worker satisfies a
  predicate, which may depend on where the worker is;
* every operation keeps `EveryLoop`, as long as the predicate holds of new workers. A change of
  settings reaches the pools through the observers of a cell. Of a service it is a statement about
  every queue that says nothing about cells (`everyLoop_iff`, `blind_everyLoop`);
* `Service.EveryLoop.modifyWorker` is about the turn of one worker.
-/

namespace DurableQueue

variable {A : Signature} {ω υ : Type}

/-! ### Pools -/

namespace Pool

/-- The loop of every worker satisfies a predicate. -/
def EveryLoop (P : Nat → Loop A → Prop) (p : Pool A) : Prop :=
  ∀ i w, p.workers[i]? = some w → P i w.loop

variable {P : Nat → Loop A → Prop} {p : Pool A}

theorem everyLoop_new : (new : Pool A).EveryLoop P := fun _ _ h => nomatch h

theorem EveryLoop.congr {p' : Pool A} (h : p.EveryLoop P) (hworkers : p'.workers = p.workers) :
    p'.EveryLoop P := by
  intro i w hw
  rw [hworkers] at hw
  exact h i w hw

/-- A change of one worker: the predicate has to hold of the others before it. -/
theorem everyLoop_modify {i : Nat} {f : Worker A → Worker A}
    (hothers : ∀ j w, j ≠ i → p.workers[j]? = some w → P j w.loop)
    (hf : ∀ w, p.workers[i]? = some w → P i (f w).loop) : (p.modify i f).EveryLoop P := by
  intro j w hw
  rw [Pool.modify, List.getElem?_modify] at hw
  obtain ⟨v, hv, rfl⟩ := Option.map_eq_some_iff.1 hw
  by_cases hij : i = j
  · subst hij
    rw [if_pos rfl]
    exact hf v hv
  · rw [if_neg hij]
    exact hothers j v (Ne.symm hij) hv

theorem EveryLoop.modifyAll (h : p.EveryLoop P) {f : Worker A → Worker A}
    (hf : ∀ w, (f w).loop = w.loop) (is : List Nat) : (p.modifyAll is f).EveryLoop P := by
  unfold Pool.modifyAll
  induction is generalizing p with
  | nil => exact h
  | cons i is ih =>
    refine ih (everyLoop_modify (fun j w _ hw => h j w hw) fun w hw => ?_)
    rw [hf]
    exact h i w hw

variable (hnew : ∀ i, P i Loop.new)

include hnew in
theorem EveryLoop.spawn (h : p.EveryLoop P) : p.spawn.EveryLoop P := by
  intro i w hw
  rw [Pool.spawn, List.getElem?_append] at hw
  split at hw
  · exact h i w hw
  · rw [List.getElem?_singleton] at hw
    split at hw
    · cases hw
      exact hnew i
    · cases hw

include hnew in
theorem EveryLoop.grow (h : p.EveryLoop P) (n : Nat) : (p.grow n).EveryLoop P := by
  induction n generalizing p with
  | zero => exact h
  | succ n ih => exact ih (h.spawn hnew)

theorem EveryLoop.shrink (h : p.EveryLoop P) (n : Nat) : (p.shrink n).EveryLoop P := by
  refine EveryLoop.congr (p := p.modifyAll (p.live.drop n).reverse (Worker.withGate Gate.cancel))
    ?_ rfl
  refine h.modifyAll ?_ _
  exact fun _ => rfl

include hnew in
theorem EveryLoop.resizeTo (h : p.EveryLoop P) (n : Nat) : (p.resizeTo n).EveryLoop P := by
  have htidy : p.tidy.EveryLoop P := h.congr rfl
  exact (htidy.grow hnew _).shrink n

include hnew in
theorem EveryLoop.resize (h : p.EveryLoop P) (threadCount : Count) :
    (p.resize threadCount).EveryLoop P := by
  unfold Pool.resize
  split
  · exact h
  · exact h.resizeTo hnew _

include hnew in
theorem EveryLoop.start (h : p.EveryLoop P) (threadCount : Count) :
    (p.start threadCount).EveryLoop P := by
  unfold Pool.start
  split
  · have hstarted : Pool.EveryLoop P { p with started := true } := h.congr rfl
    exact hstarted.resizeTo hnew _
  · exact h

theorem EveryLoop.pause (h : p.EveryLoop P) : p.pause.EveryLoop P := by
  have hpaused : Pool.EveryLoop P { p with paused := true } := h.congr rfl
  refine hpaused.modifyAll ?_ _
  exact fun _ => rfl

theorem EveryLoop.unpause (h : p.EveryLoop P) : p.unpause.EveryLoop P := by
  have hunpaused : Pool.EveryLoop P { p with paused := false } := h.congr rfl
  refine hunpaused.modifyAll ?_ _
  exact fun _ => rfl

theorem EveryLoop.wakeup (h : p.EveryLoop P) : p.wakeup.EveryLoop P := by
  refine h.modifyAll ?_ _
  exact fun _ => rfl

theorem EveryLoop.cancelAll (h : p.EveryLoop P) : p.cancelAll.EveryLoop P := by
  intro i w hw
  rw [Pool.cancelAll, List.getElem?_map] at hw
  obtain ⟨v, hv, rfl⟩ := Option.map_eq_some_iff.1 hw
  exact h i v hv

include hnew in
theorem EveryLoop.shutdown (h : p.EveryLoop P) : p.shutdown.EveryLoop P := by
  unfold Pool.shutdown
  split
  · exact h
  · have hended : Pool.EveryLoop P
        { (p.resizeTo 0).cancelAll with isShutdown := true, observer := none } :=
      (h.resizeTo hnew 0).cancelAll.congr rfl
    refine hended.modifyAll ?_ _
    exact fun _ => rfl

end Pool

/-! ### Queues -/

namespace LiveQueue

/-- The loop of every worker of every pool satisfies a predicate. -/
def EveryLoop (P : ShardId → Nat → Loop A → Prop) (q : LiveQueue A ω) : Prop :=
  ∀ shard p, q.pools.get? shard = some p → p.EveryLoop (P shard)

variable {P : ShardId → Nat → Loop A → Prop} {q : LiveQueue A ω}

theorem EveryLoop.congr {q' : LiveQueue A ω} (h : q.EveryLoop P) (hpools : q'.pools = q.pools) :
    q'.EveryLoop P := by
  intro shard p hp
  rw [hpools] at hp
  exact h shard p hp

theorem everyLoop_new (location : Location) (address : Addresses) (l : LiveSettings ω)
    (shards : List ShardId) : (new location address l shards : LiveQueue A ω).EveryLoop P := by
  intro shard p hp
  rw [eq_new_of_get hp]
  exact Pool.everyLoop_new

theorem everyLoop_modifyPool {shard : ShardId} {f : Pool A → Pool A}
    (hothers : ∀ shard' p, shard' ≠ shard → q.pools.get? shard' = some p → p.EveryLoop (P shard'))
    (hf : ∀ p, q.pools.get? shard = some p → (f p).EveryLoop (P shard)) :
    (q.modifyPool shard f).EveryLoop P := by
  intro shard' p hp
  rw [LiveQueue.modifyPool, Dict.get?_modify] at hp
  split at hp
  next heq =>
    subst heq
    obtain ⟨before, hbefore, rfl⟩ := Option.map_eq_some_iff.1 hp
    exact hf before hbefore
  next hne => exact hothers shard' p hne hp

theorem EveryLoop.modifyPool (h : q.EveryLoop P) {shard : ShardId} {f : Pool A → Pool A}
    (hf : ∀ p, q.pools.get? shard = some p → (f p).EveryLoop (P shard)) :
    (q.modifyPool shard f).EveryLoop P :=
  everyLoop_modifyPool (fun shard p _ hp => h shard p hp) hf

theorem EveryLoop.mapPools (h : q.EveryLoop P) {f : Pool A → Pool A}
    (hf : ∀ shard p, p.EveryLoop (P shard) → (f p).EveryLoop (P shard)) :
    (q.mapPools f).EveryLoop P := by
  intro shard p hp
  rw [LiveQueue.mapPools, Dict.get?_mapValues] at hp
  obtain ⟨before, hbefore, rfl⟩ := Option.map_eq_some_iff.1 hp
  exact hf shard before (h shard before hbefore)

theorem EveryLoop.pause (h : q.EveryLoop P) : q.pause.EveryLoop P :=
  h.mapPools fun _ _ hp => hp.pause

theorem EveryLoop.unpause (h : q.EveryLoop P) : q.unpause.EveryLoop P :=
  h.mapPools fun _ _ hp => hp.unpause

variable (hnew : ∀ shard i, P shard i Loop.new)

include hnew in
theorem EveryLoop.startPool (h : q.EveryLoop P) (shard : ShardId) :
    (q.startPool shard).EveryLoop P := by
  unfold LiveQueue.startPool
  split
  · refine EveryLoop.modifyPool (h.congr rfl) fun p hp => ?_
    exact ((h shard p hp).start (hnew shard) _).congr rfl
  · exact h

include hnew in
theorem EveryLoop.shutdownPool (h : q.EveryLoop P) (shard : ShardId) :
    (q.shutdownPool shard).EveryLoop P := by
  refine EveryLoop.modifyPool (h.congr rfl) fun p hp => ?_
  exact (h shard p hp).shutdown (hnew shard)

include hnew in
theorem EveryLoop.start (h : q.EveryLoop P) : q.start.EveryLoop P :=
  List.foldlRecOn q.pools.keys LiveQueue.startPool h fun _ hq shard _ => hq.startPool hnew shard

include hnew in
theorem EveryLoop.shutdown (h : q.EveryLoop P) : q.shutdown.EveryLoop P :=
  List.foldlRecOn q.pools.keys LiveQueue.shutdownPool h fun _ hq shard _ =>
    hq.shutdownPool hnew shard

include hnew in
/-- A change of the processing settings resizes pools. -/
theorem EveryLoop.setGroup (h : q.EveryLoop P) (judge : Judge ω υ) (new : GroupValue) (u : υ) :
    (q.setGroup judge new u).2.1.EveryLoop P := by
  refine LiveSettings.setGroup_keeps (Q := fun pools : Dict (Pool A) =>
    ∀ shard p, pools.get? shard = some p → p.EveryLoop (P shard)) q.toLiveSettings new u
    (fun _ queue shard n pools hpools shard' p hp => ?_) h
  unfold LiveQueue.resizeOwn at hp
  split at hp
  · rw [Dict.get?_modify] at hp
    split at hp
    next heq =>
      obtain ⟨before, hbefore, rfl⟩ := Option.map_eq_some_iff.1 hp
      exact (hpools shard' before hbefore).resize (hnew shard') n
    next => exact hpools shard' p hp
  · exact hpools shard' p hp

theorem EveryLoop.observe (h : q.EveryLoop P) (group : Group) (o : ω) :
    (q.observe group o).EveryLoop P := h.congr rfl

end LiveQueue

/-! ### Services -/

namespace Service

/-- The loop of every worker of every queue satisfies a predicate. -/
def EveryLoop (P : QueueId → ShardId → Nat → Loop A → Prop) (s : Service A ω) : Prop :=
  ∀ queue q, s.queues.get? queue = some q → q.EveryLoop (P queue)

variable {P : QueueId → ShardId → Nat → Loop A → Prop} {s : Service A ω}

/-- It is a statement about every queue. -/
theorem everyLoop_iff : s.EveryLoop P ↔ s.Every fun queue q => q.EveryLoop (P queue) := Iff.rfl

/-- It says nothing about cells. -/
theorem blind_everyLoop :
    Blind fun queue (q : LiveQueue A ω) => q.EveryLoop (P queue) :=
  fun _ _ _ h => h.congr rfl

theorem everyLoop_new (shards : List ShardId) : (new shards : Service A ω).EveryLoop P :=
  everyLoop_iff.2 (every_new shards)

theorem EveryLoop.withCells (h : s.EveryLoop P) (c : Cells ω) :
    { s with cells := c }.EveryLoop P :=
  everyLoop_iff.2 (Every.withCells h fun queue q _ => blind_everyLoop.see queue q c)

theorem EveryLoop.add (h : s.EveryLoop P) (location : Location) (address : Addresses) :
    (s.add location address).EveryLoop P :=
  everyLoop_iff.2 (Every.add h (LiveQueue.everyLoop_new location address _ s.shards))

theorem EveryLoop.enroll (h : s.EveryLoop P) (location : Location) (address : Addresses)
    (offers : ShardId → Bool) : (s.enroll location address offers).2.EveryLoop P := by
  rcases s.enroll_eq location address offers with heq | ⟨-, heq⟩
  · rw [heq]
    exact h
  · rw [heq]
    exact h.add location address

theorem EveryLoop.register (h : s.EveryLoop P) {config : QueueConfig} {hasExecutor : Bool}
    {isNew : Bool} {s' : Service A ω} (hs : s.register config hasExecutor = .ok (isNew, s')) :
    s'.EveryLoop P := by
  rcases eq_of_register hs with rfl | ⟨-, rfl⟩
  · exact h
  · exact (h.withCells _).add _ _

theorem EveryLoop.modify (h : s.EveryLoop P) {queue : QueueId} {f : LiveQueue A ω → LiveQueue A ω}
    (hstays : ∀ q : LiveQueue A ω, q.Stays (f q))
    (hf : ∀ q, q.EveryLoop (P queue) → (f q).EveryLoop (P queue)) :
    (s.modify queue f).EveryLoop P :=
  everyLoop_iff.2 (blind_everyLoop.modify h hstays hf)

theorem EveryLoop.modify? (h : s.EveryLoop P) {queue : QueueId}
    {f : LiveQueue A ω → LiveQueue A ω} {s' : Service A ω} (hs : s.modify? queue f = .ok s')
    (hstays : ∀ q : LiveQueue A ω, q.Stays (f q))
    (hf : ∀ q, q.EveryLoop (P queue) → (f q).EveryLoop (P queue)) : s'.EveryLoop P := by
  rw [eq_of_modify? hs]
  exact h.modify hstays hf

/-- The turn of one worker. The predicate may change, as long as it does not for the others. -/
theorem EveryLoop.modifyWorker {P' : QueueId → ShardId → Nat → Loop A → Prop} (h : s.EveryLoop P)
    {queue : QueueId} {shard : ShardId} {i : Nat} {f : Worker A → Worker A}
    (hothers : ∀ queue' shard' j l, (queue' = queue → shard' = shard → j ≠ i) →
      P queue' shard' j l → P' queue' shard' j l)
    (hf : ∀ w, P queue shard i w.loop → P' queue shard i (f w).loop) :
    (s.modifyPool queue shard fun p => p.modify i f).EveryLoop P' := by
  refine everyLoop_iff.2
    (every_modifyPool (fun queue' q hne hq shard' p hp j w hw => ?_) fun q hq => ?_)
  · exact hothers _ _ _ _ (fun heq => absurd heq hne) (h queue' q hq shard' p hp j w hw)
  · refine LiveQueue.everyLoop_modifyPool (fun shard' p hne hp j w hw => ?_) fun p hp => ?_
    · exact hothers _ _ _ _ (fun _ heq => absurd heq hne) (h queue q hq shard' p hp j w hw)
    · refine Pool.everyLoop_modify (fun j w hne hw => ?_) fun w hw => ?_
      · exact hothers _ _ _ _ (fun _ _ => hne) (h queue q hq shard p hp j w hw)
      · exact hf w (h queue q hq shard p hp i w hw)

theorem EveryLoop.modifyAll (h : s.EveryLoop P) {f : LiveQueue A ω → LiveQueue A ω}
    (hstays : ∀ q : LiveQueue A ω, q.Stays (f q))
    (hf : ∀ queue q, q.EveryLoop (P queue) → (f q).EveryLoop (P queue)) :
    (s.modifyAll f).EveryLoop P :=
  everyLoop_iff.2 (blind_everyLoop.modifyAll h hstays hf)

theorem EveryLoop.wakeup (h : s.EveryLoop P) {queue : QueueId} {shard : ShardId}
    {s' : Service A ω} (hs : s.wakeup queue shard = .ok s') : s'.EveryLoop P := by
  rw [eq_of_wakeup hs]
  exact everyLoop_iff.2 <| Every.modifyPool h fun q hq =>
    (h queue q hq).modifyPool fun p hp => (h queue q hq shard p hp).wakeup

theorem EveryLoop.setGroup (hnew : ∀ queue shard i, P queue shard i Loop.new) (h : s.EveryLoop P)
    (judge : Judge ω υ) (a : Addresses) (new : GroupValue) (u : υ) :
    (s.setGroup judge a new u).2.1.EveryLoop P :=
  everyLoop_iff.2 <| Every.setGroup h fun queue q hq _ =>
    (h queue q hq).setGroup (hnew queue) judge new u

theorem EveryLoop.update (hnew : ∀ queue shard i, P queue shard i Loop.new) (h : s.EveryLoop P)
    (judge : Judge ω υ) (configs : List GivenConfig) (u : υ) :
    (s.update judge configs u).2.1.EveryLoop P :=
  everyLoop_iff.2 <| Every.update h
    (fun queue _ new u hq => hq.setGroup (hnew queue) judge new u) configs u

end Service

end DurableQueue
