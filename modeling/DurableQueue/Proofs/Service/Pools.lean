import DurableQueue.Proofs.Service.Loops
import DurableQueue.Proofs.Worker.Turnover

/-!
# The pools of a queue in service

Whatever is done to a queue in service comes to its pools as steps of theirs, one pool at a time. A
change of the thread count comes to them as changes of their size, and there are more of these when
somebody has refused the change.

* `PoolSteps` says that each pool has taken steps of its own, and that none has come or gone. There
  is one lemma for each operation of a queue;
* `LiveQueue.Step` is a queue in use: its pools one by one, its thread count, its workers, and what
  others do to its cells.

**No worker is ever out of reach** (`no_worker_is_orphaned`). Every worker that has not exited is on
exactly one list of its pool, so that a shutdown cancels and aborts all of them; and a pool that is
terminated stays so.
-/

namespace DurableQueue.LiveQueue

variable {A : Signature} {ω υ : Type}

/-! ### Steps of all pools -/

/-- Each pool has taken steps of its own. -/
def PoolSteps (pools pools' : Dict (Pool A)) : Prop :=
  ∀ shard, Option.Rel (Relation.ReflTransGen Pool.Step) (pools.get? shard) (pools'.get? shard)

variable {pools pools' pools'' : Dict (Pool A)} {shard : ShardId} {p p' : Pool A}

/-- A pool is still there. -/
theorem PoolSteps.get (h : PoolSteps pools pools') (hp : pools.get? shard = some p) :
    ∃ p', pools'.get? shard = some p' ∧ Relation.ReflTransGen Pool.Step p p' := by
  have hshard := h shard
  rw [hp] at hshard
  generalize pools'.get? shard = later at hshard
  cases hshard with
  | some hsteps => exact ⟨_, rfl, hsteps⟩

/-- A pool was there before. -/
theorem PoolSteps.of_get (h : PoolSteps pools pools') (hp : pools'.get? shard = some p') :
    ∃ p, pools.get? shard = some p ∧ Relation.ReflTransGen Pool.Step p p' := by
  have hshard := h shard
  rw [hp] at hshard
  generalize pools.get? shard = earlier at hshard
  cases hshard with
  | some hsteps => exact ⟨_, rfl, hsteps⟩

theorem PoolSteps.refl (pools : Dict (Pool A)) : PoolSteps pools pools := by
  intro shard
  cases pools.get? shard with
  | none => exact .none
  | some p => exact .some .refl

theorem PoolSteps.trans (h : PoolSteps pools pools') (h' : PoolSteps pools' pools'') :
    PoolSteps pools pools'' := by
  intro shard
  have hfirst := h shard
  have hsecond := h' shard
  generalize pools.get? shard = first at hfirst ⊢
  generalize pools'.get? shard = second at hfirst hsecond
  generalize pools''.get? shard = third at hsecond ⊢
  cases hfirst with
  | none => exact hsecond
  | some hfirst =>
    cases hsecond with
    | some hsecond => exact .some (hfirst.trans hsecond)

theorem PoolSteps.modify (pools : Dict (Pool A)) (shard : ShardId) {f : Pool A → Pool A}
    (hf : ∀ p, pools.get? shard = some p → Relation.ReflTransGen Pool.Step p (f p)) :
    PoolSteps pools (pools.modify shard f) := by
  intro shard'
  have hrefl := PoolSteps.refl pools shard'
  rw [Dict.get?_modify]
  split
  next heq =>
    subst heq
    revert hf
    cases pools.get? shard' with
    | none => exact fun _ => .none
    | some p => exact fun hf => .some (hf p rfl)
  · exact hrefl

theorem PoolSteps.mapValues (pools : Dict (Pool A)) {f : Pool A → Pool A}
    (hf : ∀ p, Relation.ReflTransGen Pool.Step p (f p)) :
    PoolSteps pools (pools.mapValues fun _ p => f p) := by
  intro shard
  rw [Dict.get?_mapValues]
  cases pools.get? shard with
  | none => exact .none
  | some p => exact .some (hf p)

/-! ### Operations -/

variable (q : LiveQueue A ω)

/-- A pool that is started follows the thread count from then on. -/
theorem startPool_steps (shard : ShardId) : PoolSteps q.pools (q.startPool shard).pools := by
  unfold startPool
  split
  · exact PoolSteps.modify q.pools shard fun p _ =>
      .tail (.single (.start p q.processing.value.threadCount)) (.follow _ _)
  · exact PoolSteps.refl _

theorem shutdownPool_steps (shard : ShardId) : PoolSteps q.pools (q.shutdownPool shard).pools :=
  PoolSteps.modify q.pools shard fun p _ => .single (.shutdown p)

/-- A change of settings comes to the pools as changes of their size, whether somebody refuses it or
not. -/
theorem setGroup_steps (judge : Judge ω υ) (new : GroupValue) (u : υ) :
    PoolSteps q.pools (q.setGroup judge new u).2.1.pools := by
  refine LiveSettings.setGroup_keeps (Q := fun pools : Dict (Pool A) => PoolSteps q.pools pools)
    q.toLiveSettings new u (fun _ queue shard n pools hsteps => ?_) (PoolSteps.refl _)
  unfold resizeOwn
  split
  · exact hsteps.trans (PoolSteps.modify pools shard fun p _ => .single (.resize p n))
  · exact hsteps

theorem observe_steps (group : Group) (o : ω) : PoolSteps q.pools (q.observe group o).pools :=
  PoolSteps.refl _

/-! ### A queue in use -/

/-- A step of a queue in use, with a state of those who judge changes. -/
inductive Step (judge : Judge ω υ) : LiveQueue A ω × υ → LiveQueue A ω × υ → Prop
  | start (q : LiveQueue A ω) (u : υ) (shard : ShardId) : Step judge (q, u) (q.startPool shard, u)
  | resize (q : LiveQueue A ω) (u : υ) (shard : ShardId) (threadCount : Count) :
    Step judge (q, u) (q.modifyPool shard fun p => p.resize threadCount, u)
  | pause (q : LiveQueue A ω) (u : υ) (shard : ShardId) :
    Step judge (q, u) (q.modifyPool shard Pool.pause, u)
  | unpause (q : LiveQueue A ω) (u : υ) (shard : ShardId) :
    Step judge (q, u) (q.modifyPool shard Pool.unpause, u)
  | wakeup (q : LiveQueue A ω) (u : υ) (shard : ShardId) :
    Step judge (q, u) (q.modifyPool shard Pool.wakeup, u)
  /-- An update of the thread count, which may be refused. -/
  | update (q : LiveQueue A ω) (u : υ) (new : ProcessingSettings) :
    Step judge (q, u) (q.setProcessing judge new u).2
  | observe (q : LiveQueue A ω) (u : υ) (group : Group) (o : ω) :
    Step judge (q, u) (q.observe group o, u)
  /-- Somebody else who holds the cells has done something to them. -/
  | share (q : LiveQueue A ω) (u : υ) (l : LiveSettings ω) :
    Step judge (q, u) ({ q with toLiveSettings := l }, u)
  | shutdown (q : LiveQueue A ω) (u : υ) (shard : ShardId) :
    Step judge (q, u) (q.shutdownPool shard, u)
  /-- Something that a worker does. -/
  | act {q : LiveQueue A ω} {u : υ} {shard : ShardId} {i : Nat} {w w' : Worker A}
    (hw : ((q.pools.get? shard).bind fun p => p.workers[i]?) = some w) (hexited : w.exited = false)
    (h : w.Acts w') : Step judge (q, u) (q.modifyPool shard fun p => p.modify i fun _ => w', u)

variable {judge : Judge ω υ} {x y : LiveQueue A ω × υ}

theorem Step.poolSteps (hstep : Step judge x y) : PoolSteps x.1.pools y.1.pools := by
  cases hstep with
  | start q u shard => exact q.startPool_steps shard
  | resize q u shard threadCount => exact PoolSteps.modify _ _ fun p _ => .single (.resize p _)
  | pause q u shard => exact PoolSteps.modify _ _ fun p _ => .single (.pause p)
  | unpause q u shard => exact PoolSteps.modify _ _ fun p _ => .single (.unpause p)
  | wakeup q u shard => exact PoolSteps.modify _ _ fun p _ => .single (.wakeup p)
  | update q u new => exact q.setGroup_steps judge (.processing new) u
  | observe q u group o => exact q.observe_steps group o
  | share q u l => exact PoolSteps.refl _
  | shutdown q u shard => exact q.shutdownPool_steps shard
  | act hw hexited h =>
    refine PoolSteps.modify _ _ fun p hp => .single ?_
    rw [hp] at hw
    exact .act hw hexited h

theorem poolSteps_of_run (hrun : Relation.ReflTransGen (Step judge) x y) :
    PoolSteps x.1.pools y.1.pools := by
  induction hrun with
  | refl => exact PoolSteps.refl _
  | tail _ hstep ih => exact ih.trans hstep.poolSteps

variable {location : Location} {address : Addresses} {l : LiveSettings ω} {shards : List ShardId}

theorem roster_of_run {u : υ}
    (hrun : Relation.ReflTransGen (Step judge) (new location address l shards, u) x)
    (hp : x.1.pools.get? shard = some p) : p.Roster := by
  obtain ⟨p₀, hp₀, hsteps⟩ := (poolSteps_of_run hrun).of_get hp
  rw [eq_new_of_get hp₀] at hsteps
  exact Pool.roster_new.steps hsteps

/-- **No worker is ever out of reach.** At any time the lists of a pool are in order, and every
worker that has not exited is on exactly one of them. A change of the size appends the workers that
are missing or drops the youngest, and no step does anything else to the list of those who serve
the queue. A shutdown ends the pool, which is terminated when all workers that it has ever spawned
have exited. At any later time, what has exited, what is shut down and what is terminated still is,
and a pool that was shut down has spawned nobody and has no workers that serve the queue. -/
theorem no_worker_is_orphaned {q : LiveQueue A ω} {u₀ u : υ}
    (hrun : Relation.ReflTransGen (Step judge) (new location address l shards, u₀) (q, u))
    (hp : q.pools.get? shard = some p) :
    p.Roster ∧
    (∀ i w, p.workers[i]? = some w → w.exited = false → Xor (i ∈ p.live) (i ∈ p.retired)) ∧
    (∀ threadCount, p.isShutdown = false → (p.resize threadCount).live =
      if threadCount.val ≤ p.size then p.live.take threadCount.val
      else p.live ++ List.range' p.workers.length (threadCount.val - p.size)) ∧
    (∀ p', p.Step p' → p.EndsOnly p') ∧
    p.shutdown.isShutdown = true ∧
    (p.isTerminated = true ↔
      p.isShutdown = true ∧ ∀ i < p.workers.length, p.hasExited i = true) ∧
    ∀ q' u', Relation.ReflTransGen (Step judge) (q, u) (q', u') →
      ∃ p', q'.pools.get? shard = some p' ∧ Relation.ReflTransGen Pool.Step p p' ∧ p.Later p' ∧
        (p.isShutdown = true → p'.size = 0) ∧ (p.isTerminated = true → p'.isTerminated = true) := by
  have hroster := roster_of_run hrun hp
  refine ⟨hroster, fun i w hw hexited => hroster.listed_once hw hexited, fun _ hopen => ?_,
    fun p' hstep => hstep.endsOnly, p.isShutdown_shutdown, p.isTerminated_iff,
    fun q' u' hlater => ?_⟩
  · rw [Pool.resize_of_open hopen, Pool.live_resizeTo]
  · obtain ⟨p', hp', hsteps⟩ := (poolSteps_of_run hlater).get hp
    have htime := Pool.later_of_steps hsteps
    refine ⟨p', hp', hsteps, htime, fun hend => ?_, htime.isTerminated⟩
    rw [Pool.size, (hroster.steps hsteps).idle (htime.isShutdown hend), List.length_nil]

/-! ### Two workers -/

/-- Nobody asks for anything. -/
def mute : Signature := ⟨Empty, nofun⟩

/-- A queue with two workers. -/
def pair : LiveQueue mute Unit :=
  .new (.of "orders" "tasks") (fun _ => 0)
    (.new { processing := { threadCount := .clamp 2 } }) ["main"]

/-- An observer that refuses nothing. -/
def agreeing : Judge Unit Unit := fun _ _ _ u => (.ok (), u)

/-- A worker that was cancelled and aborted before it did anything. -/
def stray : Worker mute := { gate := (Gate.new false).cancel, aborted := true }

/-- The queue is started, the younger worker retires, the pool is shut down, and both workers
exit. -/
def closed : LiveQueue mute Unit :=
  let q := ((pair.startPool "main").setProcessing agreeing {} ()).2.1
  ((q.shutdownPool "main").modifyPool "main" fun p =>
    p.modify 1 fun _ => { stray with exited := true }).modifyPool "main" fun p =>
      p.modify 0 fun _ => { stray with exited := true }

theorem closed_run : Relation.ReflTransGen (Step agreeing) (pair, ()) (closed, ()) := by
  have hstarted : Relation.ReflTransGen (Step agreeing) (pair, ()) (pair.startPool "main", ()) :=
    .single (.start _ _ "main")
  have hexit : ∀ (q : LiveQueue mute Unit) i,
      ((q.pools.get? "main").bind fun p => p.workers[i]?) = some stray →
      Step agreeing (q, ())
        (q.modifyPool "main" fun p => p.modify i fun _ => { stray with exited := true }, ()) :=
    fun _ _ hw => .act hw rfl (.exits _)
  have hshut := (hstarted.tail (.update _ _ {})).tail (.shutdown _ _ "main")
  exact (hshut.tail (hexit _ 1 rfl)).tail (hexit _ 0 rfl)

theorem closed_stays_terminated :
    ∃ p, closed.pools.get? "main" = some p ∧ p.workers.length = 2 ∧ p.Roster ∧
      p.isTerminated = true ∧
      ∀ q' u', Relation.ReflTransGen (Step agreeing) (closed, ()) (q', u') →
        ∃ p', q'.pools.get? "main" = some p' ∧ p'.isTerminated = true := by
  have hpool : closed.pools.get? "main" = some _ := rfl
  obtain ⟨hroster, -, -, -, -, -, hlater⟩ := no_worker_is_orphaned closed_run hpool
  refine ⟨_, rfl, rfl, hroster, rfl, fun q' u' hrun => ?_⟩
  obtain ⟨p', hp', -, -, -, hend⟩ := hlater q' u' hrun
  exact ⟨p', hp', hend rfl⟩

end DurableQueue.LiveQueue
