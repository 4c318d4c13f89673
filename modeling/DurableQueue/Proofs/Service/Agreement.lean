import DurableQueue.Proofs.Service.Every
import DurableQueue.Proofs.Service.Following

/-!
# Pools, settings and each other

The pools of a queue agree with the live settings and with each other.

* `LiveQueue.Follows` says that each pool goes by the cell of the processing settings, that its
  lists are in order and that the live mode is the one that the queue was registered with. It is
  kept by everything that is done to one pool, and so by everything that is done to all;
* `LiveQueue.Uniform` says that all pools have come equally far. An operation keeps it when it
  changes the status of each pool in the same way;
* `LiveQueue.Steady` is both, and `LiveQueue.Agrees` what follows from it for the look of a queue
  (`Steady.agrees`).
-/

namespace DurableQueue.LiveQueue

variable {A : Signature} {ω υ : Type}

/-! ### Following -/

/-- The pools of a queue follow its settings, and its mode has not changed. -/
structure Follows (q : LiveQueue A ω) : Prop where
  mode : q.processing.value.mode = q.mode
  numbered : q.processing.Numbered
  goesBy : ∀ shard p, q.pools.get? shard = some p → p.GoesBy q.processing q.queue shard
  roster : ∀ shard p, q.pools.get? shard = some p → p.Roster

variable {q q' : LiveQueue A ω} {shard : ShardId}

/-- A new queue whose pools are not registered with the cell. -/
theorem follows_new {location : Location} {address : Addresses} {l : LiveSettings ω}
    {shards : List ShardId} (hnumbered : l.processing.Numbered)
    (hnone : ∀ id shard, (id, .pool location.queue shard) ∉ l.processing.observers) :
    (new location address l shards : LiveQueue A ω).Follows where
  mode := rfl
  numbered := hnumbered
  goesBy shard _ hp := by
    rw [eq_new_of_get hp]
    exact Pool.goesBy_new fun id => hnone id shard
  roster _ _ hp := by
    rw [eq_new_of_get hp]
    exact Pool.roster_new

/-- Steps of pools keep their lists in order. -/
theorem Follows.roster_of_steps (h : q.Follows) {pools : Dict (Pool A)}
    (hsteps : PoolSteps q.pools pools) : ∀ shard p, pools.get? shard = some p → p.Roster := by
  intro shard p hp
  obtain ⟨before, hbefore, hsteps⟩ := hsteps.of_get hp
  exact (h.roster shard before hbefore).steps hsteps

/-- Something is done to all pools that does not concern their size. -/
theorem Follows.mapPools (h : q.Follows) {f : Pool A → Pool A}
    (hsize : ∀ p, (f p).size = p.size) (hfollows : ∀ p, (f p).status.follows = p.status.follows)
    (hobserver : ∀ p, (f p).observer = p.observer)
    (hsteps : ∀ p, Relation.ReflTransGen Pool.Step p (f p)) : (q.mapPools f).Follows where
  mode := h.mode
  numbered := h.numbered
  goesBy shard p hp := by
    rw [LiveQueue.mapPools, Dict.get?_mapValues] at hp
    obtain ⟨before, hbefore, rfl⟩ := Option.map_eq_some_iff.1 hp
    exact (h.goesBy shard before hbefore).congr (hsize _) (hfollows _) (hobserver _)
  roster := h.roster_of_steps (PoolSteps.mapValues q.pools hsteps)

theorem Follows.pause (h : q.Follows) : q.pause.Follows :=
  h.mapPools (fun _ => Pool.size_modifyAll ..)
    (fun p => by rw [p.status_pause]; rfl)
    (fun _ => Pool.observer_modifyAll ..) fun p => .single (.pause p)

theorem Follows.unpause (h : q.Follows) : q.unpause.Follows :=
  h.mapPools (fun _ => Pool.size_modifyAll ..)
    (fun p => by rw [p.status_unpause]; rfl)
    (fun _ => Pool.observer_modifyAll ..) fun p => .single (.unpause p)

/-- Something is done to one pool, and perhaps to the observers of the settings. -/
theorem Follows.modifyPool (h : q.Follows)
    {processing : Cell ProcessingSettings (ProcessingObserver ω)} {f : Pool A → Pool A}
    (hvalue : processing.value = q.processing.value)
    (hnumbered : processing.Numbered)
    (hothers : ∀ shard' (p : Pool A), shard' ≠ shard → p.GoesBy q.processing q.queue shard' →
      p.GoesBy processing q.queue shard')
    (hf : ∀ p, q.pools.get? shard = some p → p.GoesBy q.processing q.queue shard →
      (f p).GoesBy processing q.queue shard ∧ Relation.ReflTransGen Pool.Step p (f p)) :
    ({ q with processing }.modifyPool shard f).Follows where
  mode := by
    show processing.value.mode = q.mode
    rw [hvalue, h.mode]
  numbered := hnumbered
  goesBy shard' p hp := by
    rw [LiveQueue.modifyPool, Dict.get?_modify] at hp
    split at hp
    next heq =>
      subst heq
      obtain ⟨before, hbefore, rfl⟩ := Option.map_eq_some_iff.1 hp
      exact (hf before hbefore (h.goesBy _ _ hbefore)).1
    next hne => exact hothers shard' p hne (h.goesBy _ _ hp)
  roster := h.roster_of_steps <| PoolSteps.modify q.pools shard fun p hp =>
    (hf p hp (h.goesBy _ _ hp)).2

/-- Something is done to one pool that does not concern its size. -/
theorem Follows.touchPool (h : q.Follows) {f : Pool A → Pool A}
    (hsize : ∀ p, (f p).size = p.size) (hstatus : ∀ p, (f p).status = p.status)
    (hobserver : ∀ p, (f p).observer = p.observer)
    (hsteps : ∀ p, q.pools.get? shard = some p → Relation.ReflTransGen Pool.Step p (f p)) :
    (q.modifyPool shard f).Follows :=
  h.modifyPool rfl h.numbered (fun _ _ _ hp => hp) fun p hp hgoes =>
    ⟨hgoes.congr (hsize p) (by rw [hstatus]) (hobserver p), hsteps p hp⟩

theorem Follows.startPool (h : q.Follows) (shard : ShardId) : (q.startPool shard).Follows := by
  unfold LiveQueue.startPool
  split
  next hstart =>
    refine h.modifyPool rfl (h.numbered.register _) (fun shard' p hne hp => ?_) fun p hp hgoes => ?_
    · exact hp.register fun heq => hne (ProcessingObserver.pool.inj heq).2.symm
    · rw [hp] at hstart
      exact ⟨hgoes.start hstart, .tail (.single (.start p q.processing.value.threadCount))
        (.follow _ _)⟩
  · exact h

theorem Follows.shutdownPool (h : q.Follows) (shard : ShardId) :
    (q.shutdownPool shard).Follows := by
  unfold LiveQueue.shutdownPool
  cases hid : (q.pools.get? shard).bind (·.observer) with
  | none =>
    refine h.modifyPool rfl h.numbered (fun _ _ _ hp => hp) fun p hp hgoes => ?_
    rw [hp, Option.bind_some] at hid
    refine ⟨hgoes.shutdown fun id hmem => ?_, .single (.shutdown p)⟩
    rw [hgoes.listed, hid] at hmem
    cases hmem
  | some id =>
    obtain ⟨p, hp, hobserver⟩ := Option.bind_eq_some_iff.1 hid
    have hmem := ((h.goesBy shard p hp).listed id).2 hobserver
    refine h.modifyPool rfl (h.numbered.unregister id) (fun shard' p' hne hp' => ?_)
      fun p' hp' hgoes => ?_
    · refine hp'.unregister h.numbered hmem fun heq => ?_
      exact hne (ProcessingObserver.pool.inj heq).2.symm
    · rw [hp] at hp'
      cases hp'
      refine ⟨hgoes.shutdown fun id' hmem' => ?_, .single (.shutdown p)⟩
      rw [Cell.mem_unregister, hgoes.listed, hobserver] at hmem'
      exact hmem'.2 (Option.some.inj hmem'.1).symm

theorem Follows.start (h : q.Follows) : q.start.Follows :=
  List.foldlRecOn q.pools.keys LiveQueue.startPool h fun _ hq shard _ => hq.startPool shard

theorem Follows.shutdown (h : q.Follows) : q.shutdown.Follows :=
  List.foldlRecOn q.pools.keys LiveQueue.shutdownPool h fun _ hq shard _ => hq.shutdownPool shard

theorem Follows.observe (h : q.Follows) (group : Group) (o : ω) : (q.observe group o).Follows := by
  cases group with
  | processing =>
    refine ⟨h.mode, h.numbered.register _, fun shard p hp => ?_, h.roster⟩
    exact (h.goesBy shard p hp).register nofun
  | _ => exact ⟨h.mode, h.numbered, h.goesBy, h.roster⟩

/-- During a change of the processing settings no pool gets on or changes its registration, and one
that is not registered stays as it is. -/
theorem Follows.before_setProcessing (h : q.Follows) (judge : Judge ω υ) (new : ProcessingSettings)
    (u : υ) {p' : Pool A} (hp' : (q.setProcessing judge new u).2.1.pools.get? shard = some p') :
    ∃ p, q.pools.get? shard = some p ∧ p'.status = p.status ∧ p'.observer = p.observer ∧
      (p.observer = none → p' = p) := by
  refine Cell.set_keeps (Q := fun t : Dict (Pool A) × υ => ∀ shard p', t.1.get? shard = some p' →
    ∃ p, q.pools.get? shard = some p ∧ p'.status = p.status ∧ p'.observer = p.observer ∧
      (p.observer = none → p' = p)) q.processing new ?_
    (fun _ p hp => ⟨p, hp, rfl, rfl, fun _ => rfl⟩) shard p' hp'
  rintro o ho old new ⟨pools, u⟩ hpools shard p' hp'
  by_cases heq : o = .pool q.queue shard
  · subst heq
    simp only [tellProcessing, resizeOwn, if_pos] at hp'
    split at hp'
    · exact hpools shard p' hp'
    · rw [Dict.get?_modify, if_pos rfl] at hp'
      obtain ⟨told, htold, rfl⟩ := Option.map_eq_some_iff.1 hp'
      obtain ⟨p, hp, hstatus, hobserver, -⟩ := hpools shard told htold
      refine ⟨p, hp, by simpa using hstatus, by simpa using hobserver, fun hnone => ?_⟩
      -- the pool could not be told anything if it were not registered
      obtain ⟨⟨id, _⟩, hmem, rfl⟩ := List.mem_map.1 ho
      rw [(h.goesBy shard p hp).listed, hnone] at hmem
      cases hmem
  · rw [get?_tell heq] at hp'
    exact hpools shard p' hp'

/-- After a change of the processing settings, refused or not, a pool that follows them has the
size that they say. -/
theorem Follows.sized_setProcessing (h : q.Follows) (judge : Judge ω υ) (new : ProcessingSettings)
    (u : υ) {p : Pool A} (hp : q.pools.get? shard = some p) (hfollows : p.status.follows = true) :
    Sized shard (q.setProcessing judge new u).2.1.processing.value
      (q.setProcessing judge new u).2.1.pools := by
  have hgoes := h.goesBy shard p hp
  have hsized : Sized shard q.processing.value q.pools := by
    intro p' hp' _
    rw [hp] at hp'
    cases hp'
    rw [hgoes.size, if_pos hfollows]
  have htold : .pool q.queue shard ∈ q.processing.observers.map (·.2) := by
    obtain ⟨id, hid⟩ := Option.isSome_iff_exists.1 (hgoes.observer.trans hfollows)
    exact List.mem_map.2 ⟨_, (hgoes.listed id).2 hid, rfl⟩
  have hfirst : ToldSize q.queue shard q.processing.value new ([] : List (ProcessingObserver ω))
      q.pools := .inr ⟨List.not_mem_nil, hsized⟩
  show Sized shard
    (q.processing.set (tellProcessing judge (resizeOwn q.queue)) new (q.pools, u)).2.1.value
    (q.processing.set (tellProcessing judge (resizeOwn q.queue)) new (q.pools, u)).2.2.1
  unfold Cell.set Cell.trySet
  by_cases hsame : (q.processing.value == new) = true
  · rw [if_pos hsame]
    exact hsized
  · rw [if_neg hsame]
    cases hproposed : Cell.propose (tellProcessing judge (resizeOwn q.queue)) q.processing.value new
      (q.processing.observers.map (·.2)) [] (q.pools, u) with
    | mk answer t =>
      have hsizes := hfirst.propose judge u hproposed
      cases answer with
      | ok =>
        rw [List.append_nil] at hsizes
        exact (hsizes.resolve_right fun hnot => hnot.1 htold).2
      | error e => exact hsizes

theorem processing_setProcessing (q : LiveQueue A ω) (judge : Judge ω υ) (new : ProcessingSettings)
    (u : υ) :
    (q.setProcessing judge new u).2.1.processing =
      (q.processing.set (tellProcessing judge (resizeOwn q.queue)) new (q.pools, u)).2.1 := rfl

/-- A change of the processing settings that leaves the mode. -/
theorem Follows.setProcessing (h : q.Follows) (judge : Judge ω υ) {new : ProcessingSettings}
    (hmode : new.mode = q.mode) (u : υ) : (q.setProcessing judge new u).2.1.Follows := by
  have hcell : (q.setProcessing judge new u).2.1.processing.observers = q.processing.observers ∧
      (q.setProcessing judge new u).2.1.processing.nextObserver = q.processing.nextObserver ∧
      (q.setProcessing judge new u).2.1.processing.value.mode = q.mode := by
    rw [processing_setProcessing]
    rcases Cell.set_cell (tellProcessing judge (resizeOwn q.queue)) q.processing new
      (q.pools, u) with heq | heq
    · rw [heq]
      exact ⟨rfl, rfl, h.mode⟩
    · rw [heq]
      exact ⟨rfl, rfl, hmode⟩
  obtain ⟨hobservers, hnext, hmode⟩ := hcell
  refine ⟨hmode, ⟨?_, ?_⟩, fun shard p' hp' => ?_,
    h.roster_of_steps (q.setGroup_steps judge (.processing new) u)⟩
  · rw [hobservers, hnext]
    exact h.numbered.lt
  · rw [hobservers]
    exact h.numbered.unique
  · obtain ⟨p, hp, hstatus, hobserver, hnone⟩ := h.before_setProcessing judge new u hp'
    have hgoes := h.goesBy shard p hp
    refine ⟨?_, by rw [hobserver, hstatus, hgoes.observer], fun id => ?_⟩
    · cases hfollows : p.status.follows with
      | true =>
        rw [hstatus, if_pos hfollows]
        exact h.sized_setProcessing judge new u hp hfollows p' hp' (hstatus ▸ hfollows)
      | false =>
        cases hnone (hgoes.observer_eq_none hfollows)
        rw [hgoes.size, hfollows]
        rfl
    · rw [hobservers, hobserver]
      exact hgoes.listed id

/-! ### Coming equally far -/

/-- How far the pool of a shard has come. -/
def status? (q : LiveQueue A ω) (shard : ShardId) : Option Pool.Status :=
  (q.pools.get? shard).map Pool.status

/-- All pools have come equally far. -/
def Uniform (q : LiveQueue A ω) : Prop :=
  ∀ shard shard' s s', q.status? shard = some s → q.status? shard' = some s' → s = s'

theorem uniform_new (location : Location) (address : Addresses) (l : LiveSettings ω)
    (shards : List ShardId) : (new location address l shards : LiveQueue A ω).Uniform := by
  intro shard shard' s s' hs hs'
  obtain ⟨p, hp, rfl⟩ := Option.map_eq_some_iff.1 hs
  obtain ⟨p', hp', rfl⟩ := Option.map_eq_some_iff.1 hs'
  rw [eq_new_of_get hp, eq_new_of_get hp']

/-- Every pool gets on in the same way. -/
theorem Uniform.map (h : q.Uniform) {g : Pool.Status → Pool.Status}
    (hg : ∀ shard, q'.status? shard = (q.status? shard).map g) : q'.Uniform := by
  intro shard shard' s s' hs hs'
  rw [hg] at hs hs'
  obtain ⟨t, ht, rfl⟩ := Option.map_eq_some_iff.1 hs
  obtain ⟨t', ht', rfl⟩ := Option.map_eq_some_iff.1 hs'
  rw [h shard shard' t t' ht ht']

theorem status?_mapPools {f : Pool A → Pool A} {g : Pool.Status → Pool.Status}
    (hf : ∀ p, (f p).status = g p.status) (shard : ShardId) :
    (q.mapPools f).status? shard = (q.status? shard).map g := by
  rw [status?, mapPools, Dict.get?_mapValues, Option.map_map, status?, Option.map_map]
  congr 1
  funext p
  exact hf p

theorem status?_modifyPool {f : Pool A → Pool A} {g : Pool.Status → Pool.Status}
    (hf : ∀ p, q.pools.get? shard = some p → (f p).status = g p.status) (shard' : ShardId) :
    (q.modifyPool shard f).status? shard' =
      if shard' = shard then (q.status? shard').map g else q.status? shard' := by
  rw [status?, modifyPool, Dict.get?_modify]
  split
  next heq =>
    subst heq
    rw [Option.map_map, status?, Option.map_map]
    cases hp : q.pools.get? shard' with
    | none => rfl
    | some p => exact congrArg some (hf p hp)
  · rfl

theorem status?_startPool (q : LiveQueue A ω) (shard shard' : ShardId) :
    (q.startPool shard).status? shard' =
      if shard' = shard then (q.status? shard').map Pool.Status.start else q.status? shard' := by
  unfold startPool
  split
  · exact status?_modifyPool
      (q := { q with processing := (q.processing.register (.pool q.queue shard)).2 })
      (f := fun p => { p.start q.processing.value.threadCount with
        observer := some (q.processing.register (.pool q.queue shard)).1 })
      (fun p _ => p.status_start q.processing.value.threadCount) shard'
  next hstart =>
    split
    next heq =>
      subst heq
      rw [status?]
      cases hp : q.pools.get? shard' with
      | none => rfl
      | some p =>
        have hstays : p.start .zero = p := by
          rw [hp, Option.any_some] at hstart
          rw [Pool.start, if_neg hstart]
        rw [Option.map_some, Option.map_some, ← p.status_start .zero, hstays]
    · rfl

theorem status?_shutdownPool (q : LiveQueue A ω) (shard shard' : ShardId) :
    (q.shutdownPool shard).status? shard' =
      if shard' = shard then (q.status? shard').map Pool.Status.shutdown else q.status? shard' :=
  status?_modifyPool (fun p _ => p.status_shutdown) shard'

/-- An operation on one shard after the other gets all these pools on in the same way, if doing it
twice does no more than doing it once. -/
theorem status?_foldl {f : LiveQueue A ω → ShardId → LiveQueue A ω}
    {g : Pool.Status → Pool.Status} (hg : ∀ s, g (g s) = g s)
    (hf : ∀ q shard shard', (f q shard).status? shard' =
      if shard' = shard then (q.status? shard').map g else q.status? shard')
    (q : LiveQueue A ω) (shards : List ShardId) (shard : ShardId) :
    (shards.foldl f q).status? shard =
      if shard ∈ shards then (q.status? shard).map g else q.status? shard := by
  induction shards generalizing q with
  | nil => rfl
  | cons first rest ih =>
    have htwice : ∀ s : Option Pool.Status, (s.map g).map g = s.map g := fun s => by
      rw [Option.map_map]
      congr 1
      funext s
      exact hg s
    rw [List.foldl_cons, ih, hf]
    by_cases hfirst : shard = first
    · subst hfirst
      simp [htwice]
    · simp [hfirst]

theorem status?_of_not_mem_keys (hshard : shard ∉ q.pools.keys) : q.status? shard = none := by
  rw [status?, Option.map_eq_none_iff]
  by_contra hsome
  obtain ⟨p, hp⟩ := Option.ne_none_iff_exists'.1 hsome
  exact hshard (List.mem_map.2 ⟨_, Dict.mem_entries_iff.2 hp, rfl⟩)

/-- An operation on all shards. -/
theorem Uniform.foldl (h : q.Uniform) {f : LiveQueue A ω → ShardId → LiveQueue A ω}
    {g : Pool.Status → Pool.Status} (hg : ∀ s, g (g s) = g s)
    (hf : ∀ q shard shard', (f q shard).status? shard' =
      if shard' = shard then (q.status? shard').map g else q.status? shard') :
    (q.pools.keys.foldl f q).Uniform := by
  refine h.map (g := g) fun shard => ?_
  rw [status?_foldl hg hf]
  split
  · rfl
  next hshard => rw [status?_of_not_mem_keys hshard, Option.map_none]

theorem Uniform.start (h : q.Uniform) : q.start.Uniform :=
  h.foldl Pool.Status.start_start status?_startPool

theorem Uniform.shutdown (h : q.Uniform) : q.shutdown.Uniform :=
  h.foldl Pool.Status.shutdown_shutdown status?_shutdownPool

theorem Uniform.pause (h : q.Uniform) : q.pause.Uniform :=
  h.map (status?_mapPools Pool.status_pause)

theorem Uniform.unpause (h : q.Uniform) : q.unpause.Uniform :=
  h.map (status?_mapPools Pool.status_unpause)

/-- No pool gets on. -/
theorem Uniform.mono (h : q.Uniform)
    (hstatus : ∀ shard s, q'.status? shard = some s → q.status? shard = some s) : q'.Uniform :=
  fun shard shard' s s' hs hs' => h shard shard' s s' (hstatus shard s hs) (hstatus shard' s' hs')

/-! ### Both -/

/-- The pools of a queue follow its settings and have come equally far. -/
structure Steady (q : LiveQueue A ω) : Prop where
  follows : q.Follows
  uniform : q.Uniform

theorem steady_new {location : Location} {address : Addresses} {l : LiveSettings ω}
    {shards : List ShardId} (hnumbered : l.processing.Numbered)
    (hnone : ∀ id shard, (id, .pool location.queue shard) ∉ l.processing.observers) :
    (new location address l shards : LiveQueue A ω).Steady :=
  ⟨follows_new hnumbered hnone, uniform_new location address l shards⟩

theorem Steady.start (h : q.Steady) : q.start.Steady := ⟨h.follows.start, h.uniform.start⟩

theorem Steady.shutdown (h : q.Steady) : q.shutdown.Steady :=
  ⟨h.follows.shutdown, h.uniform.shutdown⟩

theorem Steady.pause (h : q.Steady) : q.pause.Steady := ⟨h.follows.pause, h.uniform.pause⟩

theorem Steady.unpause (h : q.Steady) : q.unpause.Steady := ⟨h.follows.unpause, h.uniform.unpause⟩

/-- Something is done to one pool that does not concern its size. -/
theorem Steady.touchPool (h : q.Steady) {f : Pool A → Pool A} (hsize : ∀ p, (f p).size = p.size)
    (hstatus : ∀ p, (f p).status = p.status) (hobserver : ∀ p, (f p).observer = p.observer)
    (hsteps : ∀ p, q.pools.get? shard = some p → Relation.ReflTransGen Pool.Step p (f p)) :
    (q.modifyPool shard f).Steady := by
  refine ⟨h.follows.touchPool hsize hstatus hobserver hsteps, h.uniform.map (g := id) ?_⟩
  intro shard'
  rw [status?_modifyPool (g := id) fun p _ => hstatus p, Option.map_id, id, ite_self]

theorem Steady.wakeup (h : q.Steady) (shard : ShardId) : (q.modifyPool shard Pool.wakeup).Steady :=
  h.touchPool (fun _ => Pool.size_modifyAll ..) (fun _ => Pool.status_modifyAll ..)
    (fun _ => Pool.observer_modifyAll ..) fun p _ => .single (.wakeup p)

/-- Something that a worker does. -/
theorem Steady.modifyWorker (h : q.Steady) {i : Nat} {f : Worker A → Worker A}
    (hf : ∀ p w, q.pools.get? shard = some p → p.workers[i]? = some w →
      f w = w ∨ w.exited = false ∧ w.Acts (f w)) :
    (q.modifyPool shard fun p => p.modify i f).Steady :=
  h.touchPool (fun _ => rfl) (fun _ => rfl) (fun _ => rfl) fun p hp =>
    Pool.steps_modify fun w hw => hf p w hp hw

theorem Steady.observe (h : q.Steady) (group : Group) (o : ω) : (q.observe group o).Steady :=
  ⟨h.follows.observe group o, h.uniform.mono fun _ _ hs => hs⟩

/-- A change of other settings. -/
theorem Steady.congr (h : q.Steady) (hprocessing : q'.processing = q.processing)
    (hpools : q'.pools = q.pools) (hstays : q.Stays q') : q'.Steady := by
  refine ⟨⟨?_, ?_, ?_, ?_⟩, h.uniform.mono fun shard s hs => ?_⟩
  · rw [hprocessing, hstays.mode, h.follows.mode]
  · rw [hprocessing]
    exact h.follows.numbered
  · rw [hprocessing, hpools, hstays.queue]
    exact h.follows.goesBy
  · rw [hpools]
    exact h.follows.roster
  · rwa [status?, hpools] at hs

theorem Steady.setProcessing (h : q.Steady) (judge : Judge ω υ) {new : ProcessingSettings}
    (hmode : new.mode = q.mode) (u : υ) : (q.setProcessing judge new u).2.1.Steady := by
  refine ⟨h.follows.setProcessing judge hmode u, h.uniform.mono fun shard s hs => ?_⟩
  obtain ⟨p', hp', rfl⟩ := Option.map_eq_some_iff.1 hs
  obtain ⟨p, hp, hstatus, -, -⟩ := h.follows.before_setProcessing judge new u hp'
  rw [status?, hp, Option.map_some, hstatus]

theorem Steady.setGroup (h : q.Steady) (judge : Judge ω υ) {new : GroupValue}
    (hmode : ∀ v, new = .processing v → v.mode = q.mode) (u : υ) :
    (q.setGroup judge new u).2.1.Steady := by
  cases new with
  | processing v => exact h.setProcessing judge (hmode v rfl) u
  | _ => exact h.congr rfl rfl ⟨rfl, rfl, rfl, rfl, rfl⟩

/-- A queue as it looks from outside. -/
structure Agrees (q : LiveQueue A ω) : Prop where
  /-- A pool has as many workers as the settings say from its start to its shutdown, and none at
  other times. -/
  size : ∀ shard p, q.pools.get? shard = some p →
    p.size = if p.started && !p.isShutdown then q.processing.value.threadCount.val else 0
  /-- The pools agree with each other. -/
  alike : ∀ shard shard' p p', q.pools.get? shard = some p → q.pools.get? shard' = some p' →
    p.started = p'.started ∧ p.paused = p'.paused ∧ p.isShutdown = p'.isShutdown
  /-- Every worker that serves the queue is paused when its pool is, and only then. -/
  paused : ∀ shard p, q.pools.get? shard = some p → ∀ i ∈ p.live,
    ∃ w, p.workers[i]? = some w ∧ w.gate.paused = p.paused
  /-- The live mode is the one that the iterations were built for. -/
  mode : q.processing.value.mode = q.mode

theorem Steady.agrees (h : q.Steady) : q.Agrees where
  size shard p hp := (h.follows.goesBy shard p hp).size
  alike shard shard' p p' hp hp' := by
    refine Pool.status_eq_iff.1 (h.uniform shard shard' _ _ ?_ ?_)
    · rw [status?, hp, Option.map_some]
    · rw [status?, hp', Option.map_some]
  paused shard p hp i hi := by
    have hroster := h.follows.roster shard p hp
    have hlt := hroster.spawned i (List.mem_append_left _ hi)
    have hw := List.getElem?_eq_getElem hlt
    exact ⟨_, hw, congrArg Prod.fst (hroster.live hi hw)⟩
  mode := h.follows.mode

end DurableQueue.LiveQueue
