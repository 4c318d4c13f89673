import DurableQueue.Proofs.Settings.Telling
import DurableQueue.Service.Registry

/-!
# Queues that hold the same cells

Settings are held by reference, so what is done to one queue may be seen by others. This is all that
they see: a queue whose cells were changed by somebody else has other cells, and it is the same
queue for the rest. Only a change of the processing settings reaches other pools as well, those that
observe the cell.

* `Cells.load_store` and its kin say what is found at an address after something was put back;
* `LiveQueue.see` is a queue that looks at its cells again, and `Service.get?_modify` says what is
  seen after a change of one queue;
* `LiveQueue.setGroup` is what a change of one group is to a queue that holds the cell. A change of
  one group of a service is this to every holder, and nothing to any other queue
  (`Service.get?_setGroup`).
-/

namespace DurableQueue

variable {A : Signature} {ω υ σ τ : Type}

/-! ### Settings of one holder -/

namespace LiveSettings

/-- Settings with the cell of one group from others. -/
def take (l l' : LiveSettings ω) : Group → LiveSettings ω
  | .processing => { l with processing := l'.processing }
  | .poll => { l with poll := l'.poll }
  | .failure => { l with failure := l'.failure }
  | .reenqueue => { l with reenqueue := l'.reenqueue }
  | .ext => { l with ext := l'.ext }

variable {judge : Judge ω υ} {resize : Resize σ} {resize' : Resize τ} (l : LiveSettings ω)
  (new : GroupValue) (u : υ)

/-- A change of one group leaves the cells of the others alone. -/
theorem setGroup_eq_take (s : σ) :
    (l.setGroup judge resize new s u).2.1 =
      l.take (l.setGroup judge resize new s u).2.1 new.group := by
  cases new <;> rfl

/-- A change of one group does to the pools what resizing them does, and only if the group is that
of the thread count. -/
theorem setGroup_keeps {Q : σ → Prop}
    (hresize : new.group = .processing → ∀ queue shard n s, Q s → Q (resize queue shard n s))
    {s : σ} (h : Q s) : Q (l.setGroup judge resize new s u).2.2.1 := by
  cases new with
  | processing v =>
    refine Cell.set_keeps (Q := fun t : σ × υ => Q t.1) l.processing v ?_ h
    rintro (⟨queue, shard⟩ | o) - old new ⟨s, u⟩ hs
    · show Q (if old.threadCount = new.threadCount then s
        else resize queue shard new.threadCount s)
      split
      · exact hs
      · exact hresize rfl queue shard _ s hs
    · exact hs
  | _ => exact h

/-- Who holds the same cell and pools that are resized alike makes the same change. -/
theorem setGroup_rel (judge : Judge ω υ) {R : σ → τ → Prop} {l' : LiveSettings ω}
    (hresize : new.group = .processing → ∀ queue shard n s t, R s t →
      R (resize queue shard n s) (resize' queue shard n t))
    (hl : l'.take l new.group = l') {s : σ} {t : τ} (h : R s t) :
    (l.setGroup judge resize new s u).1 = (l'.setGroup judge resize' new t u).1 ∧
      (l'.setGroup judge resize' new t u).2.1 =
        l'.take (l.setGroup judge resize new s u).2.1 new.group ∧
      R (l.setGroup judge resize new s u).2.2.1 (l'.setGroup judge resize' new t u).2.2.1 ∧
      (l.setGroup judge resize new s u).2.2.2 = (l'.setGroup judge resize' new t u).2.2.2 := by
  cases new with
  | processing v =>
    have htell : ∀ o old new (x : σ × υ) (y : τ × υ), R x.1 y.1 ∧ x.2 = y.2 →
        (tellProcessing judge resize o old new x).1 =
            (tellProcessing judge resize' o old new y).1 ∧
          R (tellProcessing judge resize o old new x).2.1
              (tellProcessing judge resize' o old new y).2.1 ∧
            (tellProcessing judge resize o old new x).2.2 =
              (tellProcessing judge resize' o old new y).2.2 := by
      rintro (⟨queue, shard⟩ | o) old new ⟨s, u⟩ ⟨t, _⟩ ⟨hs, rfl⟩
      · refine ⟨rfl, ?_, rfl⟩
        show R (if old.threadCount = new.threadCount then s else _)
          (if old.threadCount = new.threadCount then t else _)
        split
        · exact hs
        · exact hresize rfl queue shard _ s t hs
      · exact ⟨rfl, hs, rfl⟩
    obtain ⟨hsummary, hcell, hstates⟩ :=
      Cell.set_rel (R := fun (x : σ × υ) (y : τ × υ) => R x.1 y.1 ∧ x.2 = y.2) htell
        l.processing v (s := (s, u)) (t := (t, u)) ⟨h, rfl⟩
    rw [← hl]
    exact ⟨hsummary, congrArg (fun cell => { l' with processing := cell }) hcell.symm, hstates⟩
  | _ =>
    rw [← hl]
    exact ⟨rfl, rfl, h, rfl⟩

end LiveSettings

/-! ### Cells at their addresses -/

namespace Cells

variable (c : Cells ω) (a : Addresses)

/-- What is found at some addresses after cells were put back to others. -/
theorem load_store (l : LiveSettings ω) (b : Addresses) :
    (c.store a l).load b =
      { processing := if b .processing = a .processing then l.processing
          else (c.load b).processing
        poll := if b .poll = a .poll then l.poll else (c.load b).poll
        failure := if b .failure = a .failure then l.failure else (c.load b).failure
        reenqueue := if b .reenqueue = a .reenqueue then l.reenqueue else (c.load b).reenqueue
        ext := if b .ext = a .ext then l.ext else (c.load b).ext } := rfl

@[simp] theorem load_store_self (l : LiveSettings ω) : (c.store a l).load a = l := by
  simp [load_store]

@[simp] theorem store_store (l l' : LiveSettings ω) : (c.store a l).store a l' = c.store a l' := by
  unfold store
  congr 1
  funext n
  simp only
  congr 1 <;> split <;> rfl

/-- Cells that are put back as they were make no difference. -/
@[simp] theorem store_load : c.store a (c.load a) = c := by
  unfold store load
  cases c with
  | mk next block =>
    congr 1
    funext n
    simp only
    congr 1 <;> exact (ite_eq_right_iff.2 fun heq => by rw [heq])

/-- After cells were put back with one of them changed, those who hold this one see the change. -/
theorem load_store_take (l : LiveSettings ω) (g : Group) (b : Addresses) :
    (c.store a ((c.load a).take l g)).load b =
      if b g = a g then (c.load b).take l g else c.load b := by
  have hsame : ∀ g', b g' = a g' → c.block (a g') = c.block (b g') := fun g' heq => by rw [heq]
  by_cases heq : b g = a g
  · rw [if_pos heq, load_store]
    cases g <;> simp +contextual [LiveSettings.take, load, heq, hsame]
  · rw [if_neg heq, load_store]
    cases g <;> simp +contextual [LiveSettings.take, load, heq, hsame]

/-- Who holds the same cell sees the same in it. -/
theorem take_load {a b : Addresses} {g : Group} (h : b g = a g) :
    (c.load b).take (c.load a) g = c.load b := by
  cases g <;> simp [LiveSettings.take, load, h]

variable {c a}

/-- Cells that were given out are not made anew. -/
theorem load_create (h : c.Holds a) (s : QueueSettings) : (c.create s).2.load a = c.load a := by
  have hne (g : Group) : a g ≠ c.next := Nat.ne_of_lt (h g (by cases g <;> decide))
  simp [create, load, hne]

theorem holds_create (s : QueueSettings) : (c.create s).2.Holds (c.create s).1 :=
  fun _ _ => Nat.lt_succ_self _

theorem Holds.create (h : c.Holds a) (s : QueueSettings) : (c.create s).2.Holds a :=
  fun g hg => Nat.lt_succ_of_lt (h g hg)

end Cells

/-! ### One queue -/

namespace LiveQueue

/-- A queue that looks at its cells again. -/
def see (q : LiveQueue A ω) (c : Cells ω) : LiveQueue A ω :=
  { q with toLiveSettings := c.load q.address }

/-- How the pools of one queue are resized. Those of others are none of its business. -/
def resizeOwn (queue : QueueId) : Resize (Dict (Pool A)) :=
  fun name shard threadCount pools =>
    if name = queue then pools.modify shard fun p => p.resize threadCount else pools

/-- Change one group of the settings; gives the summary of the change. -/
def setGroup (judge : Judge ω υ) (q : LiveQueue A ω) (new : GroupValue) (u : υ) :
    String × LiveQueue A ω × υ :=
  let (summary, l, pools, u) := q.toLiveSettings.setGroup judge (resizeOwn q.queue) new q.pools u
  (summary, { q with toLiveSettings := l, pools }, u)

/-- Change the processing settings. -/
def setProcessing (judge : Judge ω υ) (q : LiveQueue A ω) (new : ProcessingSettings) (u : υ) :
    String × LiveQueue A ω × υ :=
  q.setGroup judge (.processing new) u

/-- Nothing but the cells and the pools of a queue has changed. -/
structure Stays (q q' : LiveQueue A ω) : Prop where
  queue : q'.queue = q.queue
  table : q'.table = q.table
  idSequence : q'.idSequence = q.idSequence
  mode : q'.mode = q.mode
  address : q'.address = q.address

variable {q q' q'' : LiveQueue A ω}

theorem Stays.refl (q : LiveQueue A ω) : q.Stays q := ⟨rfl, rfl, rfl, rfl, rfl⟩

theorem Stays.trans (h : q.Stays q') (h' : q'.Stays q'') : q.Stays q'' :=
  ⟨h'.queue.trans h.queue, h'.table.trans h.table, h'.idSequence.trans h.idSequence,
    h'.mode.trans h.mode, h'.address.trans h.address⟩

theorem stays_startPool (q : LiveQueue A ω) (shard : ShardId) : q.Stays (q.startPool shard) := by
  unfold startPool
  split
  · exact ⟨rfl, rfl, rfl, rfl, rfl⟩
  · exact .refl q

theorem stays_shutdownPool (q : LiveQueue A ω) (shard : ShardId) :
    q.Stays (q.shutdownPool shard) := ⟨rfl, rfl, rfl, rfl, rfl⟩

theorem stays_foldl {f : LiveQueue A ω → ShardId → LiveQueue A ω}
    (hf : ∀ (q : LiveQueue A ω) shard, q.Stays (f q shard)) (q : LiveQueue A ω)
    (shards : List ShardId) : q.Stays (shards.foldl f q) :=
  List.foldlRecOn shards f (.refl q) fun _ h shard _ => h.trans (hf _ shard)

theorem stays_start (q : LiveQueue A ω) : q.Stays q.start := stays_foldl stays_startPool q _

theorem stays_shutdown (q : LiveQueue A ω) : q.Stays q.shutdown :=
  stays_foldl stays_shutdownPool q _

theorem stays_mapPools (q : LiveQueue A ω) (f : Pool A → Pool A) : q.Stays (q.mapPools f) :=
  ⟨rfl, rfl, rfl, rfl, rfl⟩

theorem stays_pause (q : LiveQueue A ω) : q.Stays q.pause := q.stays_mapPools _

theorem stays_unpause (q : LiveQueue A ω) : q.Stays q.unpause := q.stays_mapPools _

theorem stays_observe (q : LiveQueue A ω) (group : Group) (o : ω) :
    q.Stays (q.observe group o) := ⟨rfl, rfl, rfl, rfl, rfl⟩

end LiveQueue

/-! ### The queues of a service -/

namespace Service

variable {s : Service A ω} {queue : QueueId} {q : LiveQueue A ω}

theorem get?_queues (s : Service A ω) (queue : QueueId) :
    s.queues.get? queue = (s.entries.get? queue).map (s.load queue) :=
  Dict.get?_mapValues ..

@[simp] theorem contains_queues (s : Service A ω) (queue : QueueId) :
    s.queues.contains queue = s.entries.contains queue := by
  rw [Dict.contains, get?_queues, Option.isSome_map, Dict.contains]

/-- A queue in service is what was registered, with its cells. -/
theorem entry_of_get? (hq : s.queues.get? queue = some q) :
    s.entries.get? queue = some q.toQueueEntry ∧ q.queue = queue ∧
      q.toLiveSettings = s.cells.load q.address := by
  rw [get?_queues] at hq
  obtain ⟨e, he, rfl⟩ := Option.map_eq_some_iff.1 hq
  exact ⟨he, rfl, rfl⟩

/-- After a queue and its cells were put back, every other one looks at its own again. -/
theorem get?_store (s : Service A ω) (q : LiveQueue A ω) (queue : QueueId) :
    (s.store q).queues.get? queue =
      if queue = q.queue then some q
      else (s.queues.get? queue).map (·.see (s.store q).cells) := by
  rw [get?_queues, store, Dict.get?_insert]
  split
  next heq =>
    subst heq
    simp [load]
  next hne =>
    rw [get?_queues, Option.map_map]
    rfl

theorem modify_of_some (hq : s.queues.get? queue = some q)
    (f : LiveQueue A ω → LiveQueue A ω) : s.modify queue f = s.store (f q) := by
  rw [modify, hq]

theorem modify_of_none (hq : s.queues.get? queue = none) (f : LiveQueue A ω → LiveQueue A ω) :
    s.modify queue f = s := by
  rw [modify, hq]

/-- When other cells take the place of all that there were, every queue looks at its own again. -/
theorem get?_withCells (s : Service A ω) (c : Cells ω) (queue : QueueId) :
    { s with cells := c }.queues.get? queue = (s.queues.get? queue).map (·.see c) := by
  rw [get?_queues, get?_queues, Option.map_map]
  rfl

/-- A change of a queue that keeps what it is. -/
theorem get?_modify (hq : s.queues.get? queue = some q) {f : LiveQueue A ω → LiveQueue A ω}
    (hf : q.Stays (f q)) (other : QueueId) :
    (s.modify queue f).queues.get? other =
      if other = queue then some (f q)
      else (s.queues.get? other).map (·.see (s.modify queue f).cells) := by
  obtain ⟨-, hqueue, -⟩ := entry_of_get? hq
  rw [modify_of_some hq, get?_store, hf.queue, hqueue]

/-- The cells after a change of a queue that keeps what it is. -/
theorem cells_modify (hq : s.queues.get? queue = some q) {f : LiveQueue A ω → LiveQueue A ω}
    (hf : q.Stays (f q)) :
    (s.modify queue f).cells = s.cells.store q.address (f q).toLiveSettings := by
  rw [modify_of_some hq, store, hf.address]

theorem queues_modifyPool (s : Service A ω) (queue : QueueId) (shard : ShardId)
    (f : Pool A → Pool A) :
    (s.modifyPool queue shard f).queues = s.queues.modify queue (·.modifyPool shard f) := by
  refine Dict.ext_get? fun other => ?_
  rw [get?_queues, modifyPool, Dict.get?_modify, Dict.get?_modify, get?_queues]
  split
  · cases s.entries.get? other <;> rfl
  · rfl

/-! ### Changes of one group -/

variable (judge : Judge ω υ)

/-- What a change of one group puts back. -/
theorem cells_setGroup (s : Service A ω) (a : Addresses) (new : GroupValue) (u : υ) :
    (s.setGroup judge a new u).2.1.cells =
      s.cells.store a ((s.cells.load a).take
        ((s.cells.load a).setGroup judge (resizePool a) new s.entries u).2.1 new.group) :=
  congrArg (s.cells.store a) (LiveSettings.setGroup_eq_take ..)

/-- Of a queue that does not hold the cell, a change of one group leaves the entry. -/
theorem entry_setGroup_of_ne {e : QueueEntry A} {a : Addresses} {new : GroupValue}
    (he : s.entries.get? queue = some e) (hne : e.address new.group ≠ a new.group) (u : υ) :
    (s.setGroup judge a new u).2.1.entries.get? queue = some e := by
  refine LiveSettings.setGroup_keeps
    (Q := fun entries : Dict (QueueEntry A) => entries.get? queue = some e) (s.cells.load a) new u
    (fun hgroup name shard n entries h => ?_) he
  rw [hgroup] at hne
  rw [resizePool, Dict.get?_modify, h, Option.map_some, if_neg hne, ite_self]

/-- A queue that holds the cell makes the change of one group just as the service does. -/
theorem setGroup_of_eq {a : Addresses} {new : GroupValue} (hq : s.queues.get? queue = some q)
    (heq : q.address new.group = a new.group) (u : υ) :
    (s.setGroup judge a new u).1 = (q.setGroup judge new u).1 ∧
      (s.setGroup judge a new u).2.2 = (q.setGroup judge new u).2.2 ∧
      (s.setGroup judge a new u).2.1.queues.get? queue = some (q.setGroup judge new u).2.1 := by
  obtain ⟨he, rfl, hcells⟩ := entry_of_get? hq
  have hsame : q.toLiveSettings.take (s.cells.load a) new.group = q.toLiveSettings := by
    rw [hcells]
    exact s.cells.take_load heq
  -- the entry holds the cell, so that the change of its pool comes through
  have hresize : new.group = .processing → ∀ name shard n (entries : Dict (QueueEntry A)) pools,
      entries.get? q.queue = some { q.toQueueEntry with pools } →
        (resizePool a name shard n entries).get? q.queue =
          some { q.toQueueEntry with pools := LiveQueue.resizeOwn q.queue name shard n pools } := by
    intro hgroup name shard n entries pools h
    rw [hgroup] at heq
    rw [resizePool, LiveQueue.resizeOwn, Dict.get?_modify, h]
    by_cases hname : q.queue = name
    · rw [if_pos hname, if_pos hname.symm, Option.map_some, if_pos heq]
    · rw [if_neg hname, if_neg (Ne.symm hname)]
  obtain ⟨hsummary, hl, hentry, hu⟩ := LiveSettings.setGroup_rel
    (R := fun (entries : Dict (QueueEntry A)) pools =>
      entries.get? q.queue = some { q.toQueueEntry with pools })
    (s.cells.load a) new u judge hresize hsame he
  refine ⟨hsummary, hu, ?_⟩
  have hcell : (s.setGroup judge a new u).2.1.cells.load q.address =
      (q.setGroup judge new u).2.1.toLiveSettings := by
    rw [cells_setGroup, Cells.load_store_take, if_pos heq, ← hcells]
    exact hl.symm
  rw [get?_queues]
  refine (congrArg (Option.map _) hentry).trans (congrArg some ?_)
  rw [load, hcell]
  rfl

/-- A change of one group of a service is one of each queue that holds the cell, and nothing to any
other queue. -/
theorem get?_setGroup (s : Service A ω) (a : Addresses) (new : GroupValue) (u : υ)
    (queue : QueueId) :
    (s.setGroup judge a new u).2.1.queues.get? queue =
      (s.queues.get? queue).map fun q =>
        if q.address new.group = a new.group then (q.setGroup judge new u).2.1 else q := by
  cases he : s.entries.get? queue with
  | none =>
    have hnone : (s.setGroup judge a new u).2.1.entries.get? queue = none := by
      refine LiveSettings.setGroup_keeps
        (Q := fun entries : Dict (QueueEntry A) => entries.get? queue = none)
        (s.cells.load a) new u (fun _ name shard n entries h => ?_) he
      rw [resizePool, Dict.get?_modify, h, Option.map_none, ite_self]
    rw [get?_queues, get?_queues, hnone, he]
    rfl
  | some e =>
    have hq : s.queues.get? queue = some (s.load queue e) := by
      rw [get?_queues, he, Option.map_some]
    rw [hq, Option.map_some]
    by_cases heq : e.address new.group = a new.group
    · exact (setGroup_of_eq judge hq heq u).2.2.trans (congrArg some (if_pos heq).symm)
    · rw [get?_queues, entry_setGroup_of_ne judge he heq, Option.map_some, load, cells_setGroup,
        Cells.load_store_take, if_neg heq]
      exact congrArg some (if_neg heq).symm

/-- The processing mode in some cells. -/
def mode (s : Service A ω) (a : Addresses) : ProcessingMode :=
  (s.cells.load a).processing.value.mode

theorem mode_congr {s : Service A ω} {a b : Addresses} (h : b .processing = a .processing) :
    s.mode b = s.mode a := by
  rw [mode, ← s.cells.take_load h]
  rfl

/-- The mode of a queue is that of its cell. -/
theorem mode_of_get? (hq : s.queues.get? queue = some q) :
    s.mode q.address = q.settings.processing.mode := by
  obtain ⟨-, -, hcells⟩ := entry_of_get? hq
  rw [mode, ← hcells]
  rfl

/-- Processing settings with the mode that is there already leave the mode of every cell. -/
theorem mode_setGroup {s : Service A ω} {a : Addresses} {new : GroupValue}
    (hnew : ∀ v, new = .processing v → v.mode = s.mode a) (u : υ) (b : Addresses) :
    (s.setGroup judge a new u).2.1.mode b = s.mode b := by
  rw [mode, cells_setGroup, Cells.load_store_take]
  split
  next heq =>
    cases new with
    | processing v =>
      have hmode : s.mode b = s.mode a := mode_congr heq
      show ((s.cells.load a).processing.set (tellProcessing judge (resizePool a)) v
        (s.entries, u)).2.1.value.mode = s.mode b
      rcases Cell.set_cell (tellProcessing judge (resizePool a)) (s.cells.load a).processing v
        (s.entries, u) with hcell | hcell
      · rw [hcell, hmode]
        rfl
      · rw [hcell, hmode]
        exact hnew v rfl
    | _ => rfl
  next => rfl

/-- Change groups of some settings one after the other; gives the summaries of the changes. -/
def setGroups (a : Addresses) :
    List GroupValue → Service A ω → υ → List String × Service A ω × υ
  | [], s, u => ([], s, u)
  | new :: news, s, u =>
    let (summary, s, u) := s.setGroup judge a new u
    let (summaries, s, u) := setGroups a news s u
    (summary :: summaries, s, u)

/-- What a change of one group keeps is kept by several. -/
theorem setGroups_keeps {I : Service A ω → Prop} {a : Addresses} {news : List GroupValue}
    (hset : ∀ s u, ∀ new ∈ news, I s → I (s.setGroup judge a new u).2.1) {s : Service A ω}
    (h : I s) (u : υ) : I (s.setGroups judge a news u).2.1 := by
  induction news generalizing s u with
  | nil => exact h
  | cons new news ih =>
    exact ih (fun s u new hnew => hset s u new (List.mem_cons_of_mem _ hnew))
      (hset s u new List.mem_cons_self h) _

/-- What settings give to each group, when the processing mode is to stay. -/
def targets (mode : ProcessingMode) (new : QueueSettings) : List GroupValue :=
  [.processing { new.processing with mode }, .poll new.poll, .failure new.failure,
    .reenqueue new.reenqueue, .ext new.ext]

variable {judge} in
/-- The live processing mode is given to the processing settings. -/
theorem mode_of_mem_targets {mode : ProcessingMode} {new : QueueSettings} {v : ProcessingSettings}
    (h : .processing v ∈ targets mode new) : v.mode = mode := by
  simp only [targets, List.mem_cons, GroupValue.processing.injEq, reduceCtorEq, List.not_mem_nil,
    or_false] at h
  rw [h]

/-- What a change of one group keeps that leaves the mode is kept by a change of all groups. -/
theorem setTargets_keeps {I : Service A ω → Prop} {a : Addresses}
    (hset : ∀ s (new : GroupValue) u, I s → (∀ v, new = .processing v → v.mode = s.mode a) →
      I (s.setGroup judge a new u).2.1) {s : Service A ω} (h : I s) (new : QueueSettings) (u : υ) :
    I (s.setGroups judge a (targets (s.mode a) new) u).2.1 := by
  refine (setGroups_keeps judge (I := fun s' => I s' ∧ s'.mode a = s.mode a)
    (fun s' u v hv hs' => ?_) ⟨h, rfl⟩ u).1
  have hmode : ∀ v', v = .processing v' → v'.mode = s'.mode a := fun v' heq => by
    rw [heq] at hv
    rw [hs'.2, mode_of_mem_targets hv]
  exact ⟨hset s' v u hs'.1 hmode, (mode_setGroup judge hmode u a).trans hs'.2⟩

/-- A change of all settings is a change of one group after the other. -/
theorem apply_eq (s : Service A ω) (a : Addresses) (new : QueueSettings) (u : υ) :
    s.apply judge a new u =
      (String.intercalate "," ((s.setGroups judge a (targets (s.mode a) new) u).1.filter (· ≠ "")),
        (s.setGroups judge a (targets (s.mode a) new) u).2) := by
  simp only [apply, LiveSettings.apply, LiveSettings.keepingMode, setGroups, targets, mode,
    setGroup, Cells.load_store_self, Cells.store_store]

end Service

end DurableQueue
