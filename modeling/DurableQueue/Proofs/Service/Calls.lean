import DurableQueue.Proofs.Program.Monitor
import DurableQueue.Proofs.Service.Pools
import DurableQueue.Proofs.Settings.Updates
import DurableQueue.Proofs.Worker.Gating
import DurableQueue.Proofs.Worker.Round

/-!
# Runs of a queue in progress

A worker that retires may still be running its queue, and nobody waits for it. A pool that is told a
change of the thread count follows it at once, although the change is not in force yet and may still
be refused. So what bounds the runs of a queue is what its pool was told, and only those of the
workers that serve it.

* `Pool.calls` counts the runs in progress, and `Pool.callsOf` those of some workers;
* `Crew` is a queue in service with its workers on their rounds and an update that may be in
  progress. Workers take their turns between its steps. `Crew.update_at_once`: when nothing comes in
  between, the update is that of the queue;
* `Crew.told` lists the thread counts that a pool was told, and `Crew.peak` is the largest one that
  was in force or proposed;
* `Crew.RetiredFrom` says from which round a worker has retired.

**What a pool was told bounds the runs of those who serve its queue** (`calls_are_bounded`). All
other runs are of workers that have retired from the very round that they are in. The thread count
in force does not bound all runs (`two_calls_of_one_thread`).
-/

namespace DurableQueue

/-! ### Runs in progress -/

/-- A worker is running its queue. -/
def Worker.isInCall (w : Worker Duties) : Bool :=
  !w.exited &&
    match w.loop.stage with
    | .busy (.ready (.ask (.act .leave) _)) => true
    | _ => false

theorem Worker.busy_of_isInCall {w : Worker Duties} (h : w.isInCall = true) :
    w.exited = false ∧ w.loop.Busy := by
  rw [isInCall, Bool.and_eq_true_iff, Bool.not_eq_true'] at h
  refine ⟨h.1, ?_⟩
  have hstage := h.2
  split at hstage
  next heq => exact ⟨_, heq⟩
  · cases hstage

namespace Pool

variable {p p' p'' : Pool Duties}

/-- A worker of a pool is running its queue. -/
def isInCall (p : Pool Duties) (i : Nat) : Bool := p.workers[i]?.any Worker.isInCall

/-- How many of some workers are running their queue. -/
def callsOf (p : Pool Duties) (is : List Nat) : Nat := is.countP p.isInCall

/-- How many workers are running their queue. -/
def calls (p : Pool Duties) : Nat := p.callsOf (List.range p.workers.length)

theorem exists_of_isInCall {i : Nat} (h : p.isInCall i = true) :
    ∃ w, p.workers[i]? = some w ∧ w.isInCall = true := by
  simpa [isInCall, Option.any_eq_true] using h

theorem callsOf_le_length (p : Pool Duties) (is : List Nat) : p.callsOf is ≤ is.length :=
  List.countP_le_length

/-- Whoever is running the queue serves it or has retired. -/
theorem Roster.calls_eq (h : p.Roster) : p.calls = p.callsOf p.live + p.callsOf p.retired := by
  have hperm : ((List.range p.workers.length).filter p.isInCall).Perm
      ((p.live ++ p.retired).filter p.isInCall) := by
    refine (List.perm_ext_iff_of_nodup (List.nodup_range.filter _) (h.nodup.filter _)).2 fun i => ?_
    rw [List.mem_filter, List.mem_filter, List.mem_range]
    refine and_congr_left fun hi => ⟨fun _ => ?_, h.spawned i⟩
    obtain ⟨w, hw, hcall⟩ := exists_of_isInCall hi
    exact h.listed hw (Worker.busy_of_isInCall hcall).1
  rw [calls, callsOf, callsOf, callsOf, ← List.countP_append, List.countP_eq_length_filter,
    List.countP_eq_length_filter]
  exact hperm.length_eq

/-! ### What workers are doing -/

/-- What a worker is doing, if it was spawned. -/
def loopAt (p : Pool Duties) (i : Nat) : Loop Duties := (p.workers[i]?.map (·.loop)).getD .new

theorem loopAt_of_some {i : Nat} {w : Worker Duties} (hw : p.workers[i]? = some w) :
    p.loopAt i = w.loop := by
  simp [loopAt, hw]

/-- Only its own turn changes what a worker is doing. -/
theorem loopAt_move {m : Move Duties} {i : Nat} (hm : m.isTurnOf i = false) :
    (p.move (fun _ => round) m).loopAt i = p.loopAt i := by
  cases hw : p.workers[i]? with
  | some w =>
    have htold : ∃ w', (p.move (fun _ => round) m).workers[i]? = some w' ∧ w.Told _ w' :=
      told_move hw hm
    obtain ⟨w', hw', htold⟩ := htold
    rw [loopAt_of_some hw, loopAt_of_some hw', htold.loop]
  | none =>
    cases hw' : (p.move (fun _ => round) m).workers[i]? with
    | none => simp [loopAt, hw, hw']
    | some w' => simp [loopAt, hw, hw', (fresh_move hw hw').loop]

/-- A worker that does not serve the queue begins no round. -/
theorem Roster.loopAt_turn (h : p.Roster) {i : Nat} (hi : i ∉ p.live) (j now : Nat)
    (answer : (d : Duty) → d.Answer) :
    ((p.modify j (Worker.turn (fun _ => round) now answer)).loopAt i).rounds =
        (p.loopAt i).rounds ∧
      (((p.modify j (Worker.turn (fun _ => round) now answer)).loopAt i).Busy →
        (p.loopAt i).Busy) := by
  by_cases hj : ∃ w, j = i ∧ p.workers[i]? = some w
  · obtain ⟨w, rfl, hw⟩ := hj
    have hw' : (p.modify j (Worker.turn (fun _ => round) now answer)).workers[j]? =
        some (w.turn (fun _ => round) now answer) := by
      simp [modify, hw]
    rw [loopAt_of_some hw, loopAt_of_some hw']
    refine (w.turned (fun _ => round) now answer).begins_or.resolve_left ?_
    rintro ⟨hexited, -, horders, -⟩
    have hretired := (List.mem_append.1 (h.listed hw hexited)).resolve_left hi
    have hopen : w.gate.cancelled = false := congrArg Prod.snd horders
    rw [h.retired hretired hw] at hopen
    cases hopen
  · have hsame : (p.modify j (Worker.turn (fun _ => round) now answer)).loopAt i = p.loopAt i := by
      cases hw : p.workers[i]? with
      | none => simp [loopAt, modify, List.getElem?_modify, hw]
      | some w =>
        have hne : j ≠ i := fun heq => hj ⟨w, heq, hw⟩
        simp [loopAt, modify, hne]
    rw [hsame]
    exact ⟨rfl, id⟩

theorem loopAt_congr (h : p'.workers = p.workers) : p'.loopAt = p.loopAt := by
  unfold loopAt
  rw [h]

end Pool

/-! ### Updates in progress -/

namespace Cell

variable {α β ω : Type} {Q : α → Prop}

/-- The rule that observers are told changes to values with a property only. -/
def telling (Q : α → Prop) : Monitor (Steps α ω) Unit where
  Allows _ r := ∀ o old new, r = .tell o old new → Q new
  after _ _ _ := ()

/-- All that a program tells observers is a change to values with a property. -/
def TellsOnly (Q : α → Prop) (p : Program (Steps α ω) β) : Prop :=
  p.Obeys (telling Q) (fun _ _ => True) ()

theorem TellsOnly.mono {R : α → Prop} {p : Program (Steps α ω) β} (h : TellsOnly Q p)
    (himp : ∀ new, Q new → R new) : TellsOnly R p :=
  h.weaken (fun _ _ hr o old new heq => himp new (hr o old new heq)) fun _ _ _ => rfl

theorem tellsOnly_tell {o : ω} {old new : α}
    {next : Except SettingError Unit → Program (Steps α ω) β} (hnew : Q new)
    (hnext : ∀ r, TellsOnly Q (next r)) : TellsOnly Q (.ask (.tell o old new) next) := by
  refine Program.obeys_ask.2 ⟨fun _ _ _ heq => ?_, hnext⟩
  cases heq
  exact hnew

theorem tellsOnly_replaying {old new : α} (hold : Q old) (os : List ω) :
    TellsOnly Q (replaying old new os) := by
  induction os with
  | nil => trivial
  | cons o os ih => exact tellsOnly_tell hold fun _ => ih

theorem tellsOnly_proposing {old new : α} (hold : Q old) (hnew : Q new) (os accepted : List ω) :
    TellsOnly Q (proposing old new os accepted) := by
  induction os generalizing accepted with
  | nil => trivial
  | cons o os ih =>
    refine tellsOnly_tell hnew fun r => ?_
    cases r with
    | ok u => exact ih (o :: accepted)
    | error e => exact (tellsOnly_replaying hold accepted).bind fun _ _ _ => trivial

/-- An update tells observers the new value and, when one has refused, the old one. -/
theorem tellsOnly_updating [SettingGroup α] {c : Cell α ω} {new : α} (hold : Q c.value)
    (hnew : Q new) : TellsOnly Q (c.updating new) := by
  unfold updating
  split
  · trivial
  · refine (tellsOnly_proposing hold hnew _ []).bind fun r _ _ => ?_
    cases r with
    | ok u => exact Program.obeys_ask.2 ⟨nofun, fun _ => trivial⟩
    | error e => trivial

end Cell

/-! ### Crews -/

/-- What is left to do of an update of processing settings. -/
abbrev ProcessingUpdate (ω : Type) :=
  Program (Cell.Steps ProcessingSettings (ProcessingObserver ω)) (Except SettingError String)

/-- A queue in service with its workers on their rounds, and a state of those who judge changes. An
update of its processing settings may be in progress. -/
structure Crew (ω υ : Type) where
  queue : LiveQueue Duties ω
  observers : υ
  update : Option (ProcessingUpdate ω) := none
  /-- Whom the updates have called so far. -/
  asked : List (Cell.Call ProcessingSettings (ProcessingObserver ω)) := []

namespace Crew

variable {ω υ : Type}

/-- A move of a crew. -/
inductive Move (ω : Type)
  | start (shard : ShardId)
  | pause
  | unpause
  | wakeup (shard : ShardId)
  | shutdown (shard : ShardId)
  /-- Begin an update of the processing settings. While one is in progress, others have to wait
  until it is over. -/
  | propose (new : ProcessingSettings)
  /-- A step of the update in progress. -/
  | advance
  | observe (group : Group) (o : ω)
  /-- Somebody else who holds the cells has done something to them. -/
  | share (l : LiveSettings ω)
  /-- A step of a worker. -/
  | turn (shard : ShardId) (i : Nat) (now : Nat) (answer : (d : Duty) → d.Answer)
  | drop (shard : ShardId) (i : Nat)

/-- The crew of a queue that was just registered. -/
def new (location : Location) (address : Addresses) (l : LiveSettings ω) (shards : List ShardId)
    (observers : υ) : Crew ω υ :=
  { queue := .new location address l shards, observers }

/-- The thread count that is in force. -/
def threadCount (c : Crew ω υ) : Nat := c.queue.processing.value.threadCount.val

/-- Change the pool of a shard by a move of it. -/
def movePool (c : Crew ω υ) (shard : ShardId) (m : Pool.Move Duties) : Crew ω υ :=
  { c with queue := c.queue.modifyPool shard fun p => p.move (fun _ => round) m }

/-- What the steps of an update are about: the cell, the pools and the observers. -/
abbrev Scene (ω υ : Type) :=
  Cell.Progress ProcessingSettings (ProcessingObserver ω) (Dict (Pool Duties) × υ)

/-- What an update finds. -/
def scene (c : Crew ω υ) : Scene ω υ :=
  ⟨c.queue.processing, c.asked, (c.queue.pools, c.observers)⟩

/-- Go on from what an update has left. -/
def leave (c : Crew ω υ) (x : Scene ω υ) (update : Option (ProcessingUpdate ω)) : Crew ω υ where
  queue := { c.queue with processing := x.cell, pools := x.state.1 }
  observers := x.state.2
  update
  asked := x.calls

variable (judge : Judge ω υ)

/-- Answer a step of an update. Nobody looks at the cell. -/
def answer (c : Crew ω υ) :
    (r : Cell.Step ProcessingSettings (ProcessingObserver ω)) → Scene ω υ → r.Answer × Scene ω υ :=
  Cell.answer fun _ => tellProcessing judge (LiveQueue.resizeOwn c.queue.queue)

/-- Make a step of the update in progress. -/
def advance (c : Crew ω υ) : Crew ω υ :=
  match c.update with
  | none => c
  | some (.done _) => { c with update := none }
  | some (.ask r next) =>
    let (a, x) := c.answer judge r c.scene
    c.leave x (some (next a))

/-- Make a move. -/
def step (c : Crew ω υ) : Move ω → Crew ω υ
  | .start shard => { c with queue := c.queue.startPool shard }
  | .pause => { c with queue := c.queue.pause }
  | .unpause => { c with queue := c.queue.unpause }
  | .wakeup shard => c.movePool shard .wakeup
  | .shutdown shard => { c with queue := c.queue.shutdownPool shard }
  | .propose new =>
    if c.update.isSome then c else { c with update := some (c.queue.processing.updating new) }
  | .advance => c.advance judge
  | .observe group o => { c with queue := c.queue.observe group o }
  | .share l => { c with queue := { c.queue with toLiveSettings := l } }
  | .turn shard i now answer => c.movePool shard (.turn i now answer)
  | .drop shard i => c.movePool shard (.drop i)

/-- Make several moves. -/
def run (c : Crew ω υ) (moves : List (Move ω)) : Crew ω υ := moves.foldl (step judge) c

/-- The thread count that a move proposes. -/
def Move.proposed : Move ω → Nat
  | .propose new => new.threadCount.val
  | _ => 0

/-- The largest thread count that was in force or proposed so far. -/
def peak (c : Crew ω υ) : List (Move ω) → Nat
  | [] => c.threadCount
  | m :: moves => max (max c.threadCount m.proposed) (peak (c.step judge m) moves)

/-- The pool of the queue that the next step of the update in progress tells another thread
count. -/
def nextTold (c : Crew ω υ) : Option (ShardId × Count) :=
  match c.update with
  | some (.ask (.tell (.pool queue shard) old new) _) =>
    if queue = c.queue.queue ∧ old.threadCount ≠ new.threadCount then some (shard, new.threadCount)
    else none
  | _ => none

/-- The thread count that a move tells the pool of a shard: the one in force when it starts, and one
that an update proposes or takes back. -/
def tells (c : Crew ω υ) (shard : ShardId) : Move ω → Option Nat
  | .start shard' =>
    if shard = shard' ∧ (c.queue.pools.get? shard').any (·.canStart) then some c.threadCount
    else none
  | .advance =>
    match c.nextTold with
    | some (shard', n) => if shard = shard' then some n.val else none
    | none => none
  | _ => none

/-- The thread counts that the pool of a shard was told, one after the other. -/
def told (c : Crew ω υ) (shard : ShardId) : List (Move ω) → List Nat
  | [] => []
  | m :: moves => (c.tells shard m).toList ++ told (c.step judge m) shard moves

variable {judge} {c : Crew ω υ} {shard : ShardId} {p p' : Pool Duties} {m : Move ω}

theorem run_append (c : Crew ω υ) (before after : List (Move ω)) :
    c.run judge (before ++ after) = (c.run judge before).run judge after :=
  List.foldl_append

theorem told_append (c : Crew ω υ) (shard : ShardId) (before after : List (Move ω)) :
    c.told judge shard (before ++ after) =
      c.told judge shard before ++ (c.run judge before).told judge shard after := by
  induction before generalizing c with
  | nil => rfl
  | cons m before ih =>
    rw [List.cons_append, told, told, ih, List.append_assoc]
    rfl

/-! ### Updates at once -/

/-- An update in progress comes to its end in some steps. -/
theorem exists_advances (judge : Judge ω υ) (c : Crew ω υ) (update : ProcessingUpdate ω) :
    ∃ n, { c with update := some update }.run judge (List.replicate n .advance) =
      c.leave (update.run (c.answer judge) c.scene).2 none := by
  induction update generalizing c with
  | done r => exact ⟨1, rfl⟩
  | ask r next ih =>
    obtain ⟨n, hn⟩ := ih (c.answer judge r c.scene).1 (c.leave (c.answer judge r c.scene).2 none)
    exact ⟨n + 1, hn⟩

/-- When nothing comes between its steps, an update is that of the queue. -/
theorem update_at_once (hidle : c.update = none) (new : ProcessingSettings) :
    ∃ n, ∃ c' : Crew ω υ, c.run judge (.propose new :: List.replicate n .advance) = c' ∧
      c'.queue = (c.queue.setProcessing judge new c.observers).2.1 ∧
      c'.observers = (c.queue.setProcessing judge new c.observers).2.2 ∧ c'.update = none := by
  obtain ⟨n, hn⟩ := exists_advances judge c (c.queue.processing.updating new)
  have hbegun : c.run judge (.propose new :: List.replicate n .advance) =
      { c with update := some (c.queue.processing.updating new) }.run judge
        (List.replicate n .advance) := by
    simp [run, step, hidle]
  -- that the calls are noted makes no difference
  let tell := tellProcessing judge (LiveQueue.resizeOwn (A := Duties) c.queue.queue)
  have htell : ∀ o old new (x : List (Cell.Call _ _) × Dict (Pool Duties) × υ) y, x.2 = y →
      (Cell.watched (fun _ => tell) c.queue.processing o old new x).1 = (tell o old new y).1 ∧
        (Cell.watched (fun _ => tell) c.queue.processing o old new x).2.2 =
          (tell o old new y).2 := by
    rintro o old new x _ rfl
    exact ⟨rfl, rfl⟩
  have hrel := Cell.set_rel (R := fun x y => x.2 = y) htell c.queue.processing new
    (s := (c.asked, c.queue.pools, c.observers)) (t := (c.queue.pools, c.observers)) rfl
  rw [Cell.set_eq] at hrel
  obtain ⟨-, hcell, hstate⟩ := hrel
  refine ⟨n, _, hbegun.trans hn, ?_⟩
  rw [answer, scene, Cell.run_updating]
  refine ⟨?_, congrArg Prod.snd hstate, rfl⟩
  simp only [leave, LiveQueue.setProcessing, LiveQueue.setGroup, LiveSettings.setGroup]
  rw [hcell, hstate]

/-! ### What is told -/

/-- The update in progress tells pools at most some thread count. -/
def ProposesAtMost (c : Crew ω υ) (n : Nat) : Prop :=
  ∀ update ∈ c.update, Cell.TellsOnly (fun new => new.threadCount.val ≤ n) update

theorem ProposesAtMost.of_eq {c' : Crew ω υ} {n : Nat} (h : c.ProposesAtMost n)
    (hupdate : c'.update = c.update) : c'.ProposesAtMost n := by
  rw [ProposesAtMost, hupdate]
  exact h

theorem ProposesAtMost.step {n : Nat} (h : c.ProposesAtMost n) (hforce : c.threadCount ≤ n)
    (hproposed : m.proposed ≤ n) : (c.step judge m).ProposesAtMost n := by
  cases m with
  | propose new =>
    simp only [Crew.step]
    split
    · exact h
    · intro update hupdate
      cases hupdate
      exact Cell.tellsOnly_updating hforce hproposed
  | advance =>
    simp only [Crew.step, Crew.advance]
    split
    · exact h
    · exact fun update hupdate => nomatch hupdate
    next r next heq =>
      intro update hupdate
      cases hupdate
      exact (h _ heq).2 _
  | _ => exact h.of_eq rfl

theorem ProposesAtMost.nextTold_le {n : Nat} (h : c.ProposesAtMost n) {k : Count}
    (hk : c.nextTold = some (shard, k)) : k.val ≤ n := by
  unfold nextTold at hk
  split at hk
  next heq =>
    rw [Option.ite_none_right_eq_some] at hk
    obtain ⟨-, hk⟩ := hk
    cases hk
    exact (h _ heq).1 _ _ _ rfl
  · cases hk

/-- A pool is told the thread count in force, or one of the update in progress. -/
theorem ProposesAtMost.tells_le {n k : Nat} (h : c.ProposesAtMost n) (hforce : c.threadCount ≤ n)
    (hk : c.tells shard m = some k) : k ≤ n := by
  cases m with
  | start shard' =>
    rw [tells, Option.ite_none_right_eq_some] at hk
    obtain ⟨-, hk⟩ := hk
    cases hk
    exact hforce
  | advance =>
    simp only [tells] at hk
    split at hk
    next shard' told heq =>
      rw [Option.ite_none_right_eq_some] at hk
      obtain ⟨-, hk⟩ := hk
      cases hk
      exact h.nextTold_le heq
    · cases hk
  | _ => cases hk

theorem told_le {n : Nat} (h : c.ProposesAtMost n) (moves : List (Move ω)) :
    ∀ k ∈ c.told judge shard moves, k ≤ max n (c.peak judge moves) := by
  induction moves generalizing c n with
  | nil => exact nofun
  | cons m moves ih =>
    -- the bound grows with the count in force and the one that is proposed
    have hnow : c.ProposesAtMost (max n (max c.threadCount m.proposed)) := fun update hupdate =>
      (h update hupdate).mono fun _ hle => Nat.le_trans hle (Nat.le_max_left ..)
    intro k hk
    rw [peak, ← Nat.max_assoc]
    rcases List.mem_append.1 hk with hk | hk
    · refine Nat.le_trans (hnow.tells_le ?_ (Option.mem_toList.1 hk)) (Nat.le_max_left ..)
      omega
    · exact ih (hnow.step (by omega) (by omega)) k hk

/-! ### What a move does to a pool -/

/-- A step of an update comes to at most one pool of the queue. -/
theorem pools_advance (c : Crew ω υ) :
    (c.advance judge).queue.pools =
      match c.nextTold with
      | some (shard, n) => c.queue.pools.modify shard fun p => p.resize n
      | none => c.queue.pools := by
  unfold advance nextTold
  split
  next heq => simp [heq]
  next heq => simp [heq]
  next r next heq =>
    cases r with
    | install new => simp [heq, answer, Cell.answer, scene, leave]
    | tell o old new =>
      cases o with
      | other o => simp [heq, answer, Cell.answer, scene, leave, tellProcessing]
      | pool queue shard =>
        simp only [heq, answer, Cell.answer, scene, leave, tellProcessing, LiveQueue.resizeOwn]
        by_cases hcount : old.threadCount = new.threadCount <;>
          by_cases hqueue : queue = c.queue.queue <;> simp [hcount, hqueue]

/-- The pools take steps of their own. -/
theorem poolSteps_step (c : Crew ω υ) (m : Move ω) :
    LiveQueue.PoolSteps c.queue.pools (c.step judge m).queue.pools := by
  have hmove (shard : ShardId) (n : Pool.Move Duties) :
      LiveQueue.PoolSteps c.queue.pools (c.movePool shard n).queue.pools :=
    LiveQueue.PoolSteps.modify _ _ fun p _ => p.steps_move n
  cases m with
  | start shard => exact c.queue.startPool_steps shard
  | pause => exact LiveQueue.PoolSteps.mapValues _ fun p => .single (.pause p)
  | unpause => exact LiveQueue.PoolSteps.mapValues _ fun p => .single (.unpause p)
  | wakeup shard => exact hmove shard .wakeup
  | shutdown shard => exact c.queue.shutdownPool_steps shard
  | propose new =>
    simp only [step]
    split <;> exact LiveQueue.PoolSteps.refl _
  | advance =>
    rw [step, pools_advance]
    split
    · exact LiveQueue.PoolSteps.modify _ _ fun p _ => .single (.resize p _)
    · exact LiveQueue.PoolSteps.refl _
  | observe group o => exact c.queue.observe_steps group o
  | share l => exact LiveQueue.PoolSteps.refl _
  | turn shard i now answer => exact hmove shard (.turn i now answer)
  | drop shard i => exact hmove shard (.drop i)

theorem poolSteps_run (c : Crew ω υ) (moves : List (Move ω)) :
    LiveQueue.PoolSteps c.queue.pools (c.run judge moves).queue.pools := by
  induction moves generalizing c with
  | nil => exact LiveQueue.PoolSteps.refl _
  | cons m moves ih => exact (c.poolSteps_step m).trans (ih (c.step judge m))

/-- What a move does to the pool of a shard. -/
inductive Changes (c : Crew ω υ) (m : Move ω) (shard : ShardId) (p p' : Pool Duties) : Prop
  | turns (i now : Nat) (answer : (d : Duty) → d.Answer) (hnone : c.tells shard m = none)
      (h : p' = p.modify i (Worker.turn (fun _ => round) now answer))
  | keeps (hnone : c.tells shard m = none) (hloops : p'.loopAt = p.loopAt)
      (hlive : p'.live = p.live)
  | told (n : Nat) (htold : c.tells shard m = some n) (hloops : p'.loopAt = p.loopAt)
      (hsize : p'.size ≤ n) (hlive : p.size ≤ n → ∀ i ∈ p.live, i ∈ p'.live)
  | ends (hm : m = .shutdown shard) (hloops : p'.loopAt = p.loopAt) (hlive : p'.live = [])

/-- A pool with at most as many workers as it should have keeps those that serve the queue. -/
theorem mem_live_resizeTo {n i : Nat} (hsize : p.size ≤ n) (hi : i ∈ p.live) :
    i ∈ (p.resizeTo n).live := by
  rw [Pool.live_resizeTo]
  split_ifs with hle
  · rw [List.take_of_length_le hsize]
    exact hi
  · exact List.mem_append_left _ hi

theorem changes_of_resize (hroster : p.Roster) {n : Count}
    (htold : c.tells shard m = some n.val) : Changes c m shard p (p.resize n) := by
  have hloops : (p.resize n).loopAt = p.loopAt :=
    funext fun i => Pool.loopAt_move (m := .resize n) rfl
  cases hend : p.isShutdown with
  | false =>
    rw [Pool.resize_of_open hend] at hloops ⊢
    exact .told n.val htold hloops (Nat.le_of_eq (p.size_resizeTo _)) fun hsize i hi =>
      mem_live_resizeTo hsize hi
  | true =>
    rw [Pool.resize, if_pos hend]
    refine .told n.val htold rfl ?_ fun _ _ hi => hi
    rw [Pool.size, hroster.idle hend]
    exact Nat.zero_le _

theorem changes_of_move {n : Pool.Move Duties} (hnone : c.tells shard m = none)
    (hn : ∀ i, n.isTurnOf i = false) (hlive : (p.move (fun _ => round) n).live = p.live) :
    Changes c m shard p (p.move (fun _ => round) n) :=
  .keeps hnone (funext fun i => Pool.loopAt_move (hn i)) hlive

theorem Changes.refl (hnone : c.tells shard m = none) : Changes c m shard p p :=
  .keeps hnone rfl rfl

theorem changes_modify {pools : Dict (Pool Duties)} {shard' : ShardId}
    {f : Pool Duties → Pool Duties} (hnone : shard ≠ shard' → c.tells shard m = none)
    (hf : ∀ p, pools.get? shard = some p → shard = shard' → Changes c m shard p (f p))
    (hp' : (pools.modify shard' f).get? shard = some p') :
    ∃ p, pools.get? shard = some p ∧ Changes c m shard p p' := by
  rw [Dict.get?_modify] at hp'
  split at hp'
  next heq =>
    obtain ⟨p, hp, rfl⟩ := Option.map_eq_some_iff.1 hp'
    exact ⟨p, hp, hf p hp heq⟩
  next hne => exact ⟨p', hp', .refl (hnone hne)⟩

theorem changes_mapPools {f : Pool Duties → Pool Duties} (hf : ∀ p, Changes c m shard p (f p))
    (hp' : (c.queue.mapPools f).pools.get? shard = some p') :
    ∃ p, c.queue.pools.get? shard = some p ∧ Changes c m shard p p' := by
  rw [LiveQueue.mapPools, Dict.get?_mapValues] at hp'
  obtain ⟨p, hp, rfl⟩ := Option.map_eq_some_iff.1 hp'
  exact ⟨p, hp, hf p⟩

/-- A pool that can still be started is told the thread count in force. -/
theorem changes_of_start (hp : c.queue.pools.get? shard = some p) (hstart : p.canStart = true)
    (observer : Option ObserverId) :
    Changes c (.start shard) shard p
      { p.start c.queue.processing.value.threadCount with observer } := by
  have htells : c.tells shard (.start shard) = some c.threadCount :=
    if_pos ⟨rfl, by rwa [hp, Option.any_some]⟩
  have hlive : (p.start c.queue.processing.value.threadCount).live =
      (p.resizeTo c.threadCount).live := by
    rw [Pool.start, if_pos hstart, Pool.live_resizeTo, Pool.live_resizeTo]
    rfl
  refine .told c.threadCount htells ?_ ?_ fun hsize i hi => ?_
  · refine Eq.trans (Pool.loopAt_congr rfl) (funext fun i => ?_)
    exact Pool.loopAt_move (m := .start c.queue.processing.value.threadCount) rfl
  · rw [Pool.size, hlive]
    exact Nat.le_of_eq (p.size_resizeTo _)
  · rw [hlive]
    exact mem_live_resizeTo hsize hi

theorem changes_step (hroster : ∀ shard p, c.queue.pools.get? shard = some p → p.Roster)
    (hp' : (c.step judge m).queue.pools.get? shard = some p') :
    ∃ p, c.queue.pools.get? shard = some p ∧ Changes c m shard p p' := by
  cases m with
  | start shard' =>
    simp only [step, LiveQueue.startPool] at hp'
    split at hp'
    next hstart =>
      refine changes_modify (fun hne => if_neg fun h => hne h.1) (fun p hp heq => ?_) hp'
      subst heq
      rw [hp, Option.any_some] at hstart
      exact changes_of_start hp hstart _
    next hstart => exact ⟨p', hp', .refl (if_neg (mt And.right hstart))⟩
  | pause =>
    exact changes_mapPools (fun p => changes_of_move (n := .pause) rfl (fun _ => rfl)
      (by simp [Pool.move, Pool.pause])) hp'
  | unpause =>
    exact changes_mapPools (fun p => changes_of_move (n := .unpause) rfl (fun _ => rfl)
      (by simp [Pool.move, Pool.unpause])) hp'
  | wakeup shard' =>
    exact changes_modify (fun _ => rfl) (fun p _ _ => changes_of_move (n := .wakeup) rfl
      (fun _ => rfl) (by simp [Pool.move, Pool.wakeup])) hp'
  | shutdown shard' =>
    refine changes_modify (fun _ => rfl) (fun p hp heq => ?_) hp'
    subst heq
    refine .ends rfl (funext fun i => Pool.loopAt_move (m := .shutdown) rfl) ?_
    exact (hroster shard p hp).shutdown.idle p.isShutdown_shutdown
  | propose new =>
    simp only [step] at hp'
    split at hp' <;> exact ⟨p', hp', .refl rfl⟩
  | advance =>
    rw [step, pools_advance] at hp'
    split at hp'
    next shard' n heq =>
      refine changes_modify (fun hne => ?_) (fun p hp hshard => ?_) hp'
      · simp [tells, heq, hne]
      · exact changes_of_resize (hroster shard p hp) (by simp [tells, heq, hshard])
    next heq => exact ⟨p', hp', .refl (by simp [tells, heq])⟩
  | observe group o => exact ⟨p', hp', .refl rfl⟩
  | share l => exact ⟨p', hp', .refl rfl⟩
  | turn shard' i now answer =>
    exact changes_modify (fun _ => rfl) (fun p _ _ => .turns i now answer rfl rfl) hp'
  | drop shard' i =>
    exact changes_modify (fun _ => rfl) (fun p _ _ => changes_of_move (n := .drop i) rfl
      (fun _ => rfl) rfl) hp'

/-! ### Retirement -/

/-- A worker of a shard has retired from a round of its: while it was serving the queue and in this
round, the pool was told a smaller thread count or shut down, and it serves no more. -/
def RetiredFrom (judge : Judge ω υ) (c : Crew ω υ) (moves : List (Move ω)) (shard : ShardId)
    (i rounds : Nat) : Prop :=
  ∃ before m after p p', moves = before ++ m :: after ∧
    (c.run judge before).queue.pools.get? shard = some p ∧
    ((∃ n < p.size, (c.run judge before).tells shard m = some n) ∨ m = .shutdown shard) ∧
    i ∈ p.live ∧ (p.loopAt i).Busy ∧ (p.loopAt i).rounds = rounds ∧
    (c.run judge (before ++ [m])).queue.pools.get? shard = some p' ∧ i ∉ p'.live

theorem RetiredFrom.append {moves : List (Move ω)} {i rounds : Nat}
    (h : RetiredFrom judge c moves shard i rounds) (m : Move ω) :
    RetiredFrom judge c (moves ++ [m]) shard i rounds := by
  obtain ⟨before, last, after, p, p', hmoves, h⟩ := h
  exact ⟨before, last, after ++ [m], p, p', by rw [hmoves, List.append_assoc]; rfl, h⟩

section

variable {location : Location} {address : Addresses} {l : LiveSettings ω} {shards : List ShardId}
  {u : υ}

theorem roster_run (moves : List (Move ω)) :
    ∀ shard p, ((new location address l shards u).run judge moves).queue.pools.get? shard = some p →
      p.Roster := by
  intro shard p hp
  obtain ⟨first, hfirst, hsteps⟩ := (poolSteps_run _ moves).of_get hp
  rw [LiveQueue.eq_new_of_get hfirst] at hsteps
  exact Pool.roster_new.steps hsteps

/-- The last move of a run has changed the pool of a shard. -/
theorem changes_last {moves : List (Move ω)} (hp' : ((new location address l shards u).run judge
      (moves ++ [m])).queue.pools.get? shard = some p') :
    ∃ p, ((new location address l shards u).run judge moves).queue.pools.get? shard = some p ∧
      Changes ((new location address l shards u).run judge moves) m shard p p' := by
  rw [run_append] at hp'
  exact changes_step (roster_run moves) hp'

/-- No more workers serve a queue than its pool was told last. -/
theorem size_le_told (moves : List (Move ω)) :
    ∀ p, ((new location address l shards u).run judge moves).queue.pools.get? shard = some p →
      p.size ≤ ((new location address l shards u).told judge shard moves).getLastD 0 := by
  induction moves using List.reverseRecOn with
  | nil =>
    intro p hp
    rw [LiveQueue.eq_new_of_get hp]
    exact Nat.le_refl _
  | append_singleton moves m ih =>
    intro p' hp'
    obtain ⟨p, hp, hchanges⟩ := changes_last hp'
    have hold := ih p hp
    rw [told_append, told, told, List.append_nil]
    cases hchanges with
    | turns i now answer hnone h =>
      subst h
      rw [hnone, Option.toList_none, List.append_nil]
      exact hold
    | keeps hnone hloops hlive =>
      rw [hnone, Option.toList_none, List.append_nil, Pool.size, hlive]
      exact hold
    | told n htold hloops hsize hlive => simpa [htold] using hsize
    | ends hm hloops hlive =>
      rw [Pool.size, hlive]
      exact Nat.zero_le _

/-- Whoever is in a round and does not serve the queue has retired from this round. -/
theorem retiredFrom_of_busy (moves : List (Move ω)) :
    ∀ p, ((new location address l shards u).run judge moves).queue.pools.get? shard = some p →
      ∀ i ∉ p.live, (p.loopAt i).Busy →
        RetiredFrom judge (new location address l shards u) moves shard i (p.loopAt i).rounds := by
  induction moves using List.reverseRecOn with
  | nil =>
    intro p hp i _ hbusy
    rw [LiveQueue.eq_new_of_get hp] at hbusy
    cases hbusy with
    | intro a ha => cases ha
  | append_singleton moves m ih =>
    intro p' hp' i hi hbusy
    obtain ⟨p, hp, hchanges⟩ := changes_last hp'
    cases hchanges with
    | turns j now answer hnone h =>
      subst h
      have hi : i ∉ p.live := hi
      obtain ⟨hrounds, hbusy'⟩ := (roster_run moves shard p hp).loopAt_turn hi j now answer
      rw [hrounds]
      exact (ih p hp i hi (hbusy' hbusy)).append m
    | keeps hnone hloops hlive =>
      rw [hloops] at hbusy ⊢
      rw [hlive] at hi
      exact (ih p hp i hi hbusy).append m
    | told n htold hloops hsize hlive =>
      rw [hloops] at hbusy ⊢
      by_cases hserves : i ∈ p.live
      · have hless : n < p.size := Nat.lt_of_not_le fun hle => hi (hlive hle i hserves)
        exact ⟨moves, m, [], p, p', rfl, hp, .inl ⟨n, hless, htold⟩, hserves, hbusy, rfl, hp', hi⟩
      · exact (ih p hp i hserves hbusy).append m
    | ends hm hloops hlive =>
      rw [hloops] at hbusy ⊢
      by_cases hserves : i ∈ p.live
      · exact ⟨moves, m, [], p, p', rfl, hp, .inr hm, hserves, hbusy, rfl, hp', hi⟩
      · exact (ih p hp i hserves hbusy).append m

end

/-- **What a pool was told bounds the runs of those who serve its queue.** At any time those workers
of a pool that serve the queue have at most as many runs in progress as the pool was told last, and
all runs together exceed this by those of retired workers at most. Every count that a pool was told
was in force or proposed at some time. A retired worker that is running the queue has retired from
the round that it is still in, when the pool was told a smaller count or was shut down. -/
theorem calls_are_bounded (location : Location) (address : Addresses) (l : LiveSettings ω)
    (shards : List ShardId) (u : υ) (moves : List (Move ω))
    (hp : ((new location address l shards u).run judge moves).queue.pools.get? shard = some p) :
    p.callsOf p.live ≤ ((new location address l shards u).told judge shard moves).getLastD 0 ∧
    p.calls ≤ ((new location address l shards u).told judge shard moves).getLastD 0 +
      p.callsOf p.retired ∧
    (∀ n ∈ (new location address l shards u).told judge shard moves,
      n ≤ (new location address l shards u).peak judge moves) ∧
    ∀ i ∈ p.retired, p.isInCall i = true →
      RetiredFrom judge (new location address l shards u) moves shard i (p.loopAt i).rounds := by
  have hroster := roster_run moves shard p hp
  have hlive := Nat.le_trans (p.callsOf_le_length p.live) (size_le_told moves p hp)
  refine ⟨hlive, ?_, fun n hn => ?_, fun i hi hcall => ?_⟩
  · rw [hroster.calls_eq]
    exact Nat.add_le_add_right hlive _
  · have hidle : (new location address l shards u).ProposesAtMost 0 := fun _ hnone => nomatch hnone
    simpa using told_le hidle moves n hn
  · obtain ⟨w, hw, hcall⟩ := Pool.exists_of_isInCall hcall
    have hbusy : (p.loopAt i).Busy := by
      rw [Pool.loopAt_of_some hw]
      exact (Worker.busy_of_isInCall hcall).2
    have hserves : i ∉ p.live := fun hlive =>
      (List.nodup_append'.1 hroster.nodup).2.2 hlive hi
    exact retiredFrom_of_busy moves p hp i hserves hbusy

/-! ### Runs that are not bounded -/

/-- A queue with one worker. -/
def single : Crew Unit Unit :=
  new (.of "orders" "tasks") (fun _ => 0) (.new {}) ["main"] ()

/-- Every change is refused. -/
def stubborn : Judge Unit Unit := fun _ _ _ u => (.error (.rejected "processing" "not now"), u)

/-- A worker begins a round and comes to run the queue. -/
def entering (i : Nat) : List (Move Unit) :=
  List.replicate 4 <| .turn "main" i 0 fun
    | .clock => 0
    | .pollSettings => {}
    | .tell _ => ()
    | .enter => ()
    | .leave => .ok .processed

/-- An update of the thread count that nobody refuses. -/
def changing (threadCount : Count) : List (Move Unit) :=
  .propose { threadCount } :: List.replicate 3 .advance

/-- The only worker retires while it is running the queue, and another one takes its place. -/
def relief : List (Move Unit) :=
  .start "main" :: entering 0 ++ changing .zero ++ changing (.clamp 1) ++ entering 1

/-- The pool is told to have two workers, and somebody is still to refuse that. -/
def hasty : List (Move Unit) :=
  [.start "main", .observe .processing (), .propose { threadCount := .clamp 2 }, .advance] ++
    entering 0 ++ entering 1

/-- With one thread at most, a queue is run twice at a time: when a worker has retired, and before
an update is refused. -/
theorem two_calls_of_one_thread :
    (∃ p, (single.run stubborn relief).queue.pools.get? "main" = some p ∧ p.calls = 2 ∧
      ∀ n ≤ relief.length, (single.run stubborn (relief.take n)).threadCount ≤ 1) ∧
    ∃ p, (single.run stubborn hasty).queue.pools.get? "main" = some p ∧ p.calls = 2 ∧
      p.retired = [] ∧
      (∀ n ≤ hasty.length, (single.run stubborn (hasty.take n)).threadCount = 1) ∧
      ((single.run stubborn (hasty ++ [.advance, .advance, .advance])).update = none ∧
        (single.run stubborn (hasty ++ [.advance, .advance, .advance])).threadCount = 1) := by
  refine ⟨⟨_, rfl, rfl, ?_⟩, _, rfl, rfl, rfl, ?_, rfl, rfl⟩
  · decide
  · decide

/-- The worker that was relieved has retired from the round that it is still in. -/
theorem relieved_worker_has_retired :
    ∃ p, (single.run stubborn relief).queue.pools.get? "main" = some p ∧
      p.callsOf p.live ≤ 1 ∧ p.callsOf p.retired = 1 ∧
      RetiredFrom stubborn single relief "main" 0 1 := by
  have hp : (single.run stubborn relief).queue.pools.get? "main" = some _ := rfl
  obtain ⟨hlive, -, -, hretired⟩ := calls_are_bounded _ _ _ _ _ relief hp
  exact ⟨_, hp, hlive, rfl, hretired 0 (List.mem_singleton.2 rfl) rfl⟩

end Crew

end DurableQueue
