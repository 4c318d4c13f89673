import DurableQueue.Proofs.Service.Registration

/-!
# Every queue in service

Operations of a service change its queues one by one, and none of them reads one queue to change
another. What queues that hold the same cells see of each other are these cells.

* `Service.Every` says that all queues in service satisfy a predicate. It is kept by a change of one
  group as soon as `LiveQueue.setGroup` keeps the predicate (`Every.setGroup`). An operation on one
  queue keeps it if the predicate does not depend on cells (`Blind`);
* `eq_of_modify?` and its kin reduce operations to `Service.modify`, and `modifyAll_keeps`,
  `update_keeps` operations in several steps to one step.
-/

namespace DurableQueue.Service

variable {A : Signature} {ω υ : Type} {s s' : Service A ω} {queue : QueueId}
  {f : LiveQueue A ω → LiveQueue A ω}

/-! ### Steps of operations -/

theorem eq_of_modify? (hs : s.modify? queue f = .ok s') : s' = s.modify queue f := by
  unfold Service.modify? at hs
  split at hs
  · cases hs
    rfl
  · cases hs

theorem eq_of_wakeup {shard : ShardId} (hs : s.wakeup queue shard = .ok s') :
    s' = s.modifyPool queue shard Pool.wakeup := by
  unfold Service.wakeup at hs
  split at hs
  · cases hs
  · split at hs
    · cases hs
      rfl
    · cases hs

/-- A registration adds a new queue, or it changes nothing. -/
theorem eq_of_register {config : QueueConfig} {hasExecutor isNew : Bool}
    (hs : s.register config hasExecutor = .ok (isNew, s')) :
    s' = s ∨ s.queues.contains config.location.queue = false ∧ s' = s.addNew config := by
  rcases s.register_cases config hasExecutor with heq | ⟨hnew, heq⟩ | heq
  · cases heq.symm.trans hs
    exact .inl rfl
  · cases heq.symm.trans hs
    exact .inr ⟨hnew, rfl⟩
  · cases heq.symm.trans hs

theorem enroll_eq (s : Service A ω) (location : Location) (address : Addresses)
    (offers : ShardId → Bool) :
    (s.enroll location address offers).2 = s ∨
      s.queues.contains location.queue = false ∧
        (s.enroll location address offers).2 = s.add location address := by
  rcases s.enroll_cases location address offers with ⟨-, heq⟩ | ⟨hnew, -, heq⟩ | ⟨-, -, heq⟩
  · exact .inl (by rw [heq])
  · exact .inr ⟨hnew, by rw [heq]⟩
  · exact .inl (by rw [heq])

section Keeps

variable {I : Service A ω → Prop}

theorem modifyAll_keeps (hmodify : ∀ s queue, I s → I (s.modify queue f)) (h : I s) :
    I (s.modifyAll f) := by
  unfold Service.modifyAll
  exact List.foldlRecOn (motive := I) s.entries.keys _ h fun s hs queue _ => hmodify s queue hs

variable {judge : Judge ω υ}
  (hset : ∀ s a (new : GroupValue) u, I s → (∀ v, new = .processing v → v.mode = s.mode a) →
    I (s.setGroup judge a new u).2.1)

include hset in
theorem applyConfigs_keeps (h : I s) (configs : List GivenConfig) (changes : Changes) (u : υ) :
    I (applyConfigs judge configs s changes u).1 := by
  induction configs generalizing s changes u with
  | nil => exact h
  | cons config configs ih =>
    refine ih ?_ _ _
    show I (applyConfig judge config s changes u).1
    unfold Service.applyConfig
    split
    · exact h
    next e he =>
      rw [apply_eq]
      exact setTargets_keeps judge (hset · e.address) h (s.cells.read config.settings) u

include hset in
theorem update_keeps (h : I s) (configs : List GivenConfig) (u : υ) :
    I (s.update judge configs u).2.1 := by
  unfold Service.update
  split
  · exact h
  · exact applyConfigs_keeps hset h configs .empty u

end Keeps

/-- No queue comes or goes with a change of a queue. -/
theorem contains_modify (s : Service A ω) (queue : QueueId)
    (hstays : ∀ q : LiveQueue A ω, q.Stays (f q)) (other : QueueId) :
    (s.modify queue f).queues.contains other = s.queues.contains other := by
  cases hq : s.queues.get? queue with
  | none => rw [modify_of_none hq]
  | some q =>
    rw [Dict.contains, Dict.contains, get?_modify hq (hstays q)]
    split
    next heq => rw [heq, hq]; rfl
    next => rw [Option.isSome_map]

theorem contains_setGroup (s : Service A ω) (judge : Judge ω υ) (a : Addresses) (new : GroupValue)
    (u : υ) (queue : QueueId) :
    (s.setGroup judge a new u).2.1.queues.contains queue = s.queues.contains queue := by
  rw [Dict.contains, Dict.contains, get?_setGroup, Option.isSome_map]

/-! ### Every queue -/

/-- Every queue in service satisfies a predicate, which may depend on its name. -/
def Every (P : QueueId → LiveQueue A ω → Prop) (s : Service A ω) : Prop :=
  ∀ queue q, s.queues.get? queue = some q → P queue q

/-- A predicate does not depend on the cells of a queue. -/
def Blind (P : QueueId → LiveQueue A ω → Prop) : Prop :=
  ∀ queue q l, P queue q → P queue { q with toLiveSettings := l }

variable {P : QueueId → LiveQueue A ω → Prop}

theorem every_new (shards : List ShardId) : (new shards : Service A ω).Every P :=
  fun _ _ h => nomatch h

theorem Every.add (h : s.Every P) {location : Location} {address : Addresses}
    (hnew : P location.queue (.new location address (s.cells.load address) s.shards)) :
    (s.add location address).Every P := by
  intro queue q hq
  rw [get?_add] at hq
  split at hq
  next heq =>
    cases hq
    rw [heq]
    exact hnew
  · exact h queue q hq

/-- Other cells take the place of all that there were. -/
theorem Every.withCells (h : s.Every P) {c : Cells ω}
    (hsee : ∀ queue q, s.queues.get? queue = some q → P queue q → P queue (q.see c)) :
    { s with cells := c }.Every P := by
  intro queue q hq
  rw [get?_withCells] at hq
  obtain ⟨before, hbefore, rfl⟩ := Option.map_eq_some_iff.1 hq
  exact hsee queue before hbefore (h queue before hbefore)

/-- A change of the pool of a queue: the predicate has to hold of the other queues before it. -/
theorem every_modifyPool {shard : ShardId} {f : Pool A → Pool A}
    (hothers : ∀ queue' q, queue' ≠ queue → s.queues.get? queue' = some q → P queue' q)
    (hf : ∀ q, s.queues.get? queue = some q → P queue (q.modifyPool shard f)) :
    (s.modifyPool queue shard f).Every P := by
  intro queue' q hq
  rw [queues_modifyPool, Dict.get?_modify] at hq
  split at hq
  next heq =>
    subst heq
    obtain ⟨before, hbefore, rfl⟩ := Option.map_eq_some_iff.1 hq
    exact hf before hbefore
  next hne => exact hothers queue' q hne hq

theorem Every.modifyPool (h : s.Every P) {shard : ShardId} {f : Pool A → Pool A}
    (hf : ∀ q, s.queues.get? queue = some q → P queue (q.modifyPool shard f)) :
    (s.modifyPool queue shard f).Every P :=
  every_modifyPool (fun queue q _ hq => h queue q hq) hf

/-- A change of one queue, which others see in their cells. -/
theorem Every.modify (h : s.Every P) (hstays : ∀ q : LiveQueue A ω, q.Stays (f q))
    (hf : ∀ q, s.queues.get? queue = some q → P queue (f q))
    (hsee : ∀ other q', other ≠ queue → s.queues.get? other = some q' →
      P other (q'.see (s.modify queue f).cells)) :
    (s.modify queue f).Every P := by
  cases hq : s.queues.get? queue with
  | none =>
    rw [modify_of_none hq]
    exact h
  | some q =>
    intro other q' hq'
    rw [get?_modify hq (hstays q)] at hq'
    split at hq'
    next heq =>
      cases hq'
      rw [heq]
      exact hf q hq
    next hne =>
      obtain ⟨before, hbefore, rfl⟩ := Option.map_eq_some_iff.1 hq'
      exact hsee other before hne hbefore

theorem Every.setGroup (h : s.Every P) {judge : Judge ω υ} {a : Addresses} {new : GroupValue}
    {u : υ} (hset : ∀ queue q, s.queues.get? queue = some q → q.address new.group = a new.group →
      P queue (q.setGroup judge new u).2.1) :
    (s.setGroup judge a new u).2.1.Every P := by
  intro queue q hq
  rw [get?_setGroup] at hq
  obtain ⟨before, hbefore, rfl⟩ := Option.map_eq_some_iff.1 hq
  split
  next heq => exact hset queue before hbefore heq
  next => exact h queue before hbefore

/-- An update keeps what a change of one group keeps. -/
theorem Every.update (h : s.Every P) {judge : Judge ω υ}
    (hset : ∀ queue q (new : GroupValue) u, P queue q → P queue (q.setGroup judge new u).2.1)
    (configs : List GivenConfig) (u : υ) : (s.update judge configs u).2.1.Every P :=
  update_keeps (I := Every P) (fun _ _ new u hs _ => Every.setGroup hs fun queue q hq _ =>
    hset queue q new u (hs queue q hq)) h configs u

/-! ### Predicates that do not depend on cells -/

namespace Blind

variable (hblind : Blind P)

include hblind in
theorem see (queue : QueueId) (q : LiveQueue A ω) (c : Cells ω) (h : P queue q) :
    P queue (q.see c) := hblind queue q _ h

include hblind in
theorem modify (h : s.Every P) (hstays : ∀ q : LiveQueue A ω, q.Stays (f q))
    (hf : ∀ q, P queue q → P queue (f q)) : (s.modify queue f).Every P :=
  Every.modify h hstays (fun q hq => hf q (h queue q hq)) fun other q' _ hq' =>
    hblind.see other q' _ (h other q' hq')

include hblind in
theorem modifyAll (h : s.Every P) (hstays : ∀ q : LiveQueue A ω, q.Stays (f q))
    (hf : ∀ queue q, P queue q → P queue (f q)) : (s.modifyAll f).Every P :=
  modifyAll_keeps (fun _ queue hs => hblind.modify hs hstays (hf queue)) h

end Blind

end DurableQueue.Service
