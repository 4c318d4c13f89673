import DurableQueue.Proofs.Service.Loops
import DurableQueue.Proofs.Works.Books

/-!
# Watching the works

A rule for the requests of workers, jobs and producers, with something to remember about each of
them, is kept by the works as soon as it is kept by their programs.

* `Watch` is such a rule, `Watch.Lawful` says that the programs keep it, whatever the answers are;
* `State.asked` is the request that is made in a move, `step_of_asked` and `step_of_not_asked` say
  what moves change besides programs, and `Watch.after` is what is remembered after a move;
* `Watched` is the invariant: what is left of each program keeps the rule from what is remembered of
  its actor. `Watched.step` is the step lemma, and `Watched.permits` what it is good for.
-/

namespace DurableQueue.Works

open Program

variable {π ω υ τ : Type}

/-- A rule for requests, by what is remembered of who makes them. -/
structure Watch (π τ : Type) where
  Permits : τ → Deed π → Prop
  note : τ → (d : Deed π) → d.Answer → τ
  /-- What is remembered of a job when it begins. -/
  job : Place → TaskRecord → τ

/-- The monitor of a rule; sleeping and waiting change nothing. -/
def Watch.monitor (m : Watch π τ) : Monitor (Paced (Deeds π)) τ where
  Allows t
    | .act d => m.Permits t d
    | _ => True
  after t
    | .act d, a => m.note t d a
    | .sleep _, _ => t
    | .wait _ _, _ => t

/-- The rule is kept by the programs of workers, jobs and producers. -/
structure Watch.Lawful (m : Watch π τ) : Prop where
  round : ∀ place transformer mode t,
    (roundAt place transformer mode).Obeys m.monitor (fun _ _ => True) t
  job : ∀ place transformer record,
    (jobAt place transformer record).Obeys m.monitor (fun _ _ => True) (m.job place record)
  producer : ∀ location transformer route order t,
    (producerAt location transformer route order).Obeys m.monitor (fun _ _ => True) t

/-! ### Programs in progress -/

section Programs

variable (m : Watch π τ) {t : τ}

/-- What is left of a program in progress keeps the rule. -/
def Activity.Keeps (t : τ) : Activity (Deeds π) → Prop
  | .ready p => p.Obeys m.monitor (fun _ _ => True) t
  | .asleep _ next => next.Obeys m.monitor (fun _ _ => True) t
  | .waiting _ next => ∀ outcome, (next outcome).Obeys m.monitor (fun _ _ => True) t

/-- What is left of the iteration of a worker keeps the rule. -/
def Loop.Keeps (t : τ) (l : Loop (Deeds π)) : Prop :=
  match l.stage with
  | .busy a => Activity.Keeps m t a
  | _ => True

/-- The next step of something in progress keeps the rule. -/
def Turn.Keeps {P : Type} (good : τ → P → Prop) (t : τ) : Turn (Deeds π) P → Prop
  | .moves state _ => good t state
  | .asks r next => m.Permits t r ∧ ∀ a, good (m.note t r a) (next a)
  | .blocked => True
  | .over => True
  | .fails _ => True

variable {m}

theorem Activity.turn_keeps {a : Activity (Deeds π)} (h : Activity.Keeps m t a) (now : Nat)
    (g : Gate) : Turn.Keeps m (Activity.Keeps m) t (a.turn now g) := by
  match a with
  | .ready (.done ()) => trivial
  | .ready (.ask (.act r) next) => exact h
  | .ready (.ask (.sleep nanos) next) => exact h.2 ()
  | .ready (.ask (.wait timeout policy) next) =>
    simp only [DurableQueue.Activity.turn]
    split
    · exact h.2
    · trivial
  | .asleep wake next =>
    simp only [DurableQueue.Activity.turn]
    split
    · exact h
    · trivial
  | .waiting w next =>
    simp only [DurableQueue.Activity.turn]
    split
    next outcome g _ => exact h outcome
    next looked _ =>
      split
      · trivial
      · exact h

theorem Loop.turn_keeps {l : Loop (Deeds π)} (h : Loop.Keeps m t l)
    {body : Nat → PacedProgram (Deeds π) Unit}
    (hbody : ∀ n, (body n).Obeys m.monitor (fun _ _ => True) t) (now : Nat) (g : Gate) :
    Turn.Keeps m (Loop.Keeps m) t (l.turn body now g) := by
  obtain ⟨rounds, stage⟩ := l
  cases stage with
  | atGate =>
    simp only [DurableQueue.Loop.turn]
    split
    · trivial
    · split
      · trivial
      · exact hbody _
  | heldBack =>
    simp only [DurableQueue.Loop.turn]
    split
    · trivial
    · split <;> trivial
  | stopped => trivial
  | busy a =>
    have hturn := Activity.turn_keeps (show Activity.Keeps m t a from h) now g
    simp only [DurableQueue.Loop.turn]
    generalize a.turn now g = step at hturn ⊢
    cases step with
    | moves b g => exact hturn
    | asks r next => exact hturn
    | _ => trivial

end Programs

/-! ### Requests -/

variable {plan : Plan π ω υ} {w : State π ω υ}

namespace State

/-- The request that is made in a move, and who makes it. -/
def asked (plan : Plan π ω υ) (w : State π ω υ) : Move π ω → Option (Actor × Luck × Deed π)
  | .turn queue shard i luck =>
    match w.worker? queue shard i with
    | none => none
    | some (q, x) =>
      if x.exited then none
      else
        match x.loop.turn (fun _ => roundAt ⟨shard, q.location⟩ (plan.transformer queue) q.mode)
            w.now x.gate with
        | .asks d _ => some (.worker queue shard i, luck, d)
        | _ => none
  | .advance i luck =>
    match w.errands[i]? with
    | none => none
    | some activity =>
      match activity.turn w.now (.new false) with
      | .asks d _ => some (.errand i, luck, d)
      | _ => none
  | .call user place c luck => some (.user user, luck, .offer place c)
  | _ => none

/-- The job that is begun in a move, with its number. -/
def begun? (w : State π ω υ) : Move π ω → Option (Nat × Place × TaskRecord)
  | .beginJob i => w.jobs[i]?.map fun job => (i, job)
  | _ => none

theorem begun?_of_ne {move : Move π ω} (h : ∀ i, move ≠ .beginJob i) : w.begun? move = none := by
  unfold begun?
  split
  next i => exact absurd rfl (h i)
  next => rfl

/-- A job that is begun has waited. -/
theorem job_of_begun? {move : Move π ω} {i : Nat} {place : Place} {record : TaskRecord}
    (h : w.begun? move = some (i, place, record)) : w.jobs[i]? = some (place, record) := by
  unfold begun? at h
  split at h
  · obtain ⟨job, hjob, heq⟩ := Option.map_eq_some_iff.1 h
    cases heq
    exact hjob
  · cases h

/-- Users do nothing but call stores. -/
theorem call_of_user {move : Move π ω} {n : Nat} {luck : Luck} {d : Deed π}
    (h : w.asked plan move = some (.user n, luck, d)) :
    ∃ place c, move = .call n place c luck ∧ d = .offer place c := by
  unfold asked at h
  split at h
  next =>
    split at h
    · cases h
    · split at h
      · cases h
      · split at h <;> cases h
  next =>
    split at h
    · cases h
    · split at h <;> cases h
  next =>
    cases h
    exact ⟨_, _, rfl, rfl⟩
  · cases h

end State

section Requests

variable {move : Move π ω} {actor : Actor} {luck : Luck} {d : Deed π}

/-- A move with a request leaves stores, jobs and custody as the answer to the request does, and but
for users also the history. -/
theorem step_of_asked (h : w.asked plan move = some (actor, luck, d)) :
    (w.step plan move).stores = (w.perform plan actor luck d).2.stores ∧
      (w.step plan move).jobs = (w.perform plan actor luck d).2.jobs ∧
      (w.step plan move).custody = (w.serve plan actor luck d).2.custody ∧
      ((∀ n, actor ≠ .user n) →
        (w.step plan move).history = (w.serve plan actor luck d).2.history) := by
  unfold State.asked at h
  split at h
  next queue shard i luck' =>
    split at h
    · cases h
    next q x hx =>
      split at h
      · cases h
      next hexited =>
        split at h
        next d' next heq =>
          cases h
          simp [State.step, State.turn, hx, hexited, heq, State.modifyWorker, State.serve,
            State.note]
        · cases h
  next i luck' =>
    split at h
    · cases h
    next activity hi =>
      split at h
      next d' next heq =>
        cases h
        simp [State.step, State.advance, hi, heq, State.serve, State.note]
      · cases h
  next user place c luck' =>
    cases h
    refine ⟨rfl, rfl, ?_, fun hactor => absurd rfl (hactor user)⟩
    -- users have nothing in custody that a call could change
    funext b
    show (w.call plan (.user user) luck place c).2.custody b
      = if b = .user user then (w.call plan (.user user) luck place c).2.custody (.user user)
        else (w.call plan (.user user) luck place c).2.custody b
    split
    next hb => rw [hb]
    next => rfl
  · cases h

/-- Another move changes these only by clearing a store or beginning a job. -/
theorem step_of_not_asked (h : w.asked plan move = none) (hclear : ∀ n, move ≠ .clear n)
    (hbegin : ∀ i, move ≠ .beginJob i) :
    (w.step plan move).stores = w.stores ∧ (w.step plan move).jobs = w.jobs ∧
      (w.step plan move).custody = w.custody ∧ (w.step plan move).history = w.history := by
  have hoperate (result : Except ServiceError (Service (Deeds π) ω)) :
      (w.operate result).stores = w.stores ∧ (w.operate result).jobs = w.jobs ∧
        (w.operate result).custody = w.custody ∧ (w.operate result).history = w.history := by
    cases result <;> exact ⟨rfl, rfl, rfl, rfl⟩
  cases move with
  | turn queue shard i luck =>
    simp only [State.step, State.turn]
    split
    · exact ⟨rfl, rfl, rfl, rfl⟩
    next q x hx =>
      split
      · exact ⟨rfl, rfl, rfl, rfl⟩
      next hexited =>
        split
        · exact ⟨rfl, rfl, rfl, rfl⟩
        next heq => simp [State.asked, hx, hexited, heq] at h
        all_goals exact ⟨rfl, rfl, rfl, rfl⟩
  | advance i luck =>
    simp only [State.step, State.advance]
    split
    · exact ⟨rfl, rfl, rfl, rfl⟩
    next activity hi =>
      split
      · exact ⟨rfl, rfl, rfl, rfl⟩
      next heq => simp [State.asked, hi, heq] at h
      all_goals exact ⟨rfl, rfl, rfl, rfl⟩
  | call user place c luck => cases h
  | clear store => exact absurd rfl (hclear store)
  | beginJob i => exact absurd rfl (hbegin i)
  | setGroup queue new =>
    simp only [State.step, State.setGroup]
    split <;> exact ⟨rfl, rfl, rfl, rfl⟩
  | enroll location address offers =>
    simp only [State.step, State.enroll]
    split <;> exact ⟨rfl, rfl, rfl, rfl⟩
  | register | start | pause | unpause | shutdown | wakeup => exact hoperate _
  | pass | create | startAll | pauseAll | unpauseAll | shutdownAll | update | observe | drop
  | beginProducer => exact ⟨rfl, rfl, rfl, rfl⟩

end Requests

/-- What is remembered of everybody after a move. -/
def Watch.after (m : Watch π τ) (plan : Plan π ω υ) (w : State π ω υ) (g : Actor → τ)
    (move : Move π ω) : Actor → τ :=
  match w.asked plan move with
  | some (actor, luck, d) =>
    fun b => if b = actor then m.note (g actor) d (w.perform plan actor luck d).1 else g b
  | none =>
    match w.begun? move with
    | some (_, place, record) =>
      fun b => if b = .errand w.errands.length then m.job place record else g b
    | none => g

/-- What is left of each program keeps the rule. -/
structure Watched (m : Watch π τ) (g : Actor → τ) (w : State π ω υ) : Prop where
  workers : w.service.EveryLoop fun queue shard i => Loop.Keeps m (g (.worker queue shard i))
  errands : ∀ i a, w.errands[i]? = some a → Activity.Keeps m (g (.errand i)) a

namespace Watch

variable {m : Watch π τ} {g : Actor → τ} {move : Move π ω} {actor : Actor} {luck : Luck}
  {d : Deed π}

theorem after_of_asked (h : w.asked plan move = some (actor, luck, d)) :
    m.after plan w g move
      = fun b => if b = actor then m.note (g actor) d (w.perform plan actor luck d).1 else g b := by
  unfold after
  rw [h]

theorem after_of_begun {i : Nat} {place : Place} {record : TaskRecord}
    (h : w.asked plan move = none) (hjob : w.begun? move = some (i, place, record)) :
    m.after plan w g move
      = fun b => if b = .errand w.errands.length then m.job place record else g b := by
  unfold after
  rw [h, hjob]

theorem after_of_none (h : w.asked plan move = none) (hjob : w.begun? move = none) :
    m.after plan w g move = g := by
  unfold after
  rw [h, hjob]

end Watch

namespace Watched

variable {m : Watch π τ} {g : Actor → τ}

theorem initial (m : Watch π τ) (g : Actor → τ) (shards : List ShardId) (observers : υ)
    (stores : Nat → Store) :
    Watched m g (.initial shards observers stores : State π ω υ) :=
  ⟨Service.everyLoop_new shards, fun _ _ h => nomatch h⟩

variable (h : Watched m g w)

include h

/-- A change of the service alone. -/
theorem withService {service : Service (Deeds π) ω} {observers : υ}
    (hservice : service.EveryLoop fun queue shard i =>
      Loop.Keeps m (g (.worker queue shard i))) :
    Watched m g { w with service, observers } :=
  ⟨hservice, h.errands⟩

theorem operate {result : Except ServiceError (Service (Deeds π) ω)}
    (hresult : ∀ service, result = .ok service → service.EveryLoop fun queue shard i =>
      Loop.Keeps m (g (.worker queue shard i))) : Watched m g (w.operate result) := by
  cases result with
  | error e => exact h
  | ok service => exact h.withService (hresult service rfl)

theorem modifyWorker (queue : QueueId) (shard : ShardId) (i : Nat)
    {f : Worker (Deeds π) → Worker (Deeds π)}
    (hf : ∀ x, Loop.Keeps m (g (.worker queue shard i)) x.loop →
      Loop.Keeps m (g (.worker queue shard i)) (f x).loop) :
    Watched m g (w.modifyWorker queue shard i f) :=
  h.withService (h.workers.modifyWorker (fun _ _ _ _ _ hl => hl) hf)

/-- The worker of a number keeps the rule. -/
theorem keeps_of_worker? {queue : QueueId} {shard : ShardId} {i : Nat}
    {q : LiveQueue (Deeds π) ω} {x : Worker (Deeds π)}
    (hx : w.worker? queue shard i = some (q, x)) :
    Loop.Keeps m (g (.worker queue shard i)) x.loop := by
  unfold State.worker? at hx
  split at hx
  · cases hx
  next q' hq =>
    obtain ⟨y, hy, heq⟩ := Option.map_eq_some_iff.1 hx
    cases heq
    obtain ⟨p, hp, hworker⟩ := Option.bind_eq_some_iff.1 hy
    exact h.workers queue q hq shard p hp i x hworker

/-- The request of a worker is answered, and nobody else notices. -/
theorem serveWorker {queue : QueueId} {shard : ShardId} {i : Nat} {d : Deed π}
    {next : d.Answer → Loop (Deeds π)} {t : τ} (luck : Luck)
    (hnext : Loop.Keeps m t (next (w.serve plan (.worker queue shard i) luck d).1)) :
    Watched m (fun b => if b = .worker queue shard i then t else g b)
      ((w.serve plan (.worker queue shard i) luck d).2.modifyWorker queue shard i fun x =>
        { x with loop := next (w.serve plan (.worker queue shard i) luck d).1 }) := by
  refine ⟨?_, fun j a ha => ?_⟩
  · unfold State.modifyWorker
    rw [service_serve]
    refine h.workers.modifyWorker (fun queue' shard' j l hne hl => ?_) fun x _ => ?_
    · rw [if_neg]
      · exact hl
      · intro heq
        obtain ⟨hqueue, hshard, hj⟩ := Actor.worker.inj heq
        exact hne hqueue hshard hj
    · rw [if_pos rfl]
      exact hnext
  · rw [if_neg Actor.noConfusion]
    exact h.errands j a (errands_serve luck ▸ ha)

/-- A step of a worker. -/
theorem turn (hm : m.Lawful) (queue : QueueId) (shard : ShardId) (i : Nat) (luck : Luck) :
    Watched m (m.after plan w g (.turn queue shard i luck)) (w.turn plan queue shard i luck) := by
  have hnone (hasked : w.asked plan (.turn queue shard i luck) = none) :
      m.after plan w g (.turn queue shard i luck) = g := Watch.after_of_none hasked rfl
  unfold State.turn
  split
  next hx =>
    rw [hnone (by simp [State.asked, hx])]
    exact h
  next q x hx =>
    split
    next hexited =>
      rw [hnone (by simp [State.asked, hx, hexited])]
      exact h
    next hexited =>
      have hturn := Loop.turn_keeps (h.keeps_of_worker? hx)
        (fun _ => hm.round ⟨shard, q.location⟩ (plan.transformer queue) q.mode _) w.now x.gate
      split
      next loop gate heq =>
        rw [heq] at hturn
        rw [hnone (by simp [State.asked, hx, hexited, heq])]
        exact h.modifyWorker queue shard i fun _ _ => hturn
      next d next heq =>
        rw [heq] at hturn
        have hasked : w.asked plan (.turn queue shard i luck)
            = some (.worker queue shard i, luck, d) := by
          simp [State.asked, hx, hexited, heq]
        rw [Watch.after_of_asked hasked]
        exact h.serveWorker luck (hturn.2 _)
      next heq =>
        rw [hnone (by simp [State.asked, hx, hexited, heq])]
        exact h
      next heq =>
        rw [hnone (by simp [State.asked, hx, hexited, heq])]
        exact h.modifyWorker queue shard i fun _ hl => hl
      next gate heq =>
        rw [hnone (by simp [State.asked, hx, hexited, heq])]
        exact h.modifyWorker queue shard i fun _ hl => hl

omit h in
/-- A list of programs in progress, one of which is set anew. -/
theorem errands_set {errands : List (Activity (Deeds π))} {c c' : Nat → τ} {i : Nat}
    {next : Activity (Deeds π)} (h : ∀ j a, errands[j]? = some a → Activity.Keeps m (c j) a)
    (hothers : ∀ j, j ≠ i → c' j = c j) (hnext : Activity.Keeps m (c' i) next) :
    ∀ j a, (errands.set i next)[j]? = some a → Activity.Keeps m (c' j) a := by
  intro j a ha
  by_cases hj : j = i
  · subst hj
    rw [List.getElem?_set_self'] at ha
    obtain ⟨_, -, rfl⟩ := Option.map_eq_some_iff.1 ha
    exact hnext
  · rw [List.getElem?_set_ne (Ne.symm hj)] at ha
    rw [hothers j hj]
    exact h j a ha

omit h in
/-- A list of programs in progress that has grown by one. -/
theorem errands_append {errands : List (Activity (Deeds π))} {c c' : Nat → τ}
    {p : PacedProgram (Deeds π) Unit} (h : ∀ j a, errands[j]? = some a → Activity.Keeps m (c j) a)
    (hothers : ∀ j, j < errands.length → c' j = c j)
    (hp : p.Obeys m.monitor (fun _ _ => True) (c' errands.length)) :
    ∀ j a, (errands ++ [.ready p])[j]? = some a → Activity.Keeps m (c' j) a := by
  intro j a ha
  by_cases hj : j < errands.length
  · rw [List.getElem?_append_left hj] at ha
    rw [hothers j hj]
    exact h j a ha
  · rw [List.getElem?_append_right (Nat.le_of_not_lt hj), List.getElem?_singleton] at ha
    split at ha
    next hlast =>
      obtain rfl : j = errands.length := by omega
      cases ha
      exact hp
    next => cases ha

/-- Workers keep the rule when somebody else is remembered anew. -/
theorem workers_of_ne {actor : Actor} (hactor : ∀ queue shard i, .worker queue shard i ≠ actor)
    (t : τ) : w.service.EveryLoop fun queue shard i =>
      Loop.Keeps m (if .worker queue shard i = actor then t else g (.worker queue shard i)) := by
  intro queue q hq shard p hp i x hx
  show Loop.Keeps m (if Actor.worker queue shard i = actor then t else _) x.loop
  rw [if_neg (hactor queue shard i)]
  exact h.workers queue q hq shard p hp i x hx

/-- A step of a job or a producer. -/
theorem advance (i : Nat) (luck : Luck) :
    Watched m (m.after plan w g (.advance i luck)) (w.advance plan i luck) := by
  have hnone (hasked : w.asked plan (.advance i luck) = none) :
      m.after plan w g (.advance i luck) = g := Watch.after_of_none hasked rfl
  unfold State.advance
  split
  next hi =>
    rw [hnone (by simp [State.asked, hi])]
    exact h
  next activity hi =>
    have hturn := Activity.turn_keeps (h.errands i activity hi) w.now (.new false)
    split
    next next gate heq =>
      rw [heq] at hturn
      rw [hnone (by simp [State.asked, hi, heq])]
      exact ⟨h.workers, errands_set h.errands (fun _ _ => rfl) hturn⟩
    next d next heq =>
      rw [heq] at hturn
      have hasked : w.asked plan (.advance i luck) = some (.errand i, luck, d) := by
        simp [State.asked, hi, heq]
      rw [Watch.after_of_asked hasked]
      refine ⟨?_, ?_⟩
      · show (w.serve plan (.errand i) luck d).2.service.EveryLoop _
        rw [service_serve]
        exact h.workers_of_ne (fun _ _ _ => Actor.noConfusion) _
      · show ∀ j a, ((w.serve plan (.errand i) luck d).2.errands.set i _)[j]? = some a → _
        rw [errands_serve]
        refine errands_set (c := fun j => g (.errand j)) h.errands (fun j hj => ?_) ?_
        · exact if_neg fun heq => hj (Actor.errand.inj heq)
        · rw [if_pos rfl]
          exact hturn.2 _
    all_goals
      next heq =>
        rw [hnone (by simp [State.asked, hi, heq])]
        exact h

/-- A job begins with what is remembered of a job, under a number that nobody has had. -/
theorem beginJob (hm : m.Lawful) (i : Nat) :
    Watched m (m.after plan w g (.beginJob i)) (w.beginJob plan i) := by
  have hasked : w.asked plan (.beginJob i) = none := rfl
  unfold State.beginJob
  split
  next hjob =>
    rw [Watch.after_of_none hasked (by simp [State.begun?, hjob])]
    exact h
  next place record hjob =>
    have hbegun : w.begun? (.beginJob i) = some (i, place, record) := by
      simp [State.begun?, hjob]
    rw [Watch.after_of_begun hasked hbegun]
    refine ⟨h.workers_of_ne (fun _ _ _ => Actor.noConfusion) _,
      errands_append h.errands (fun j hj => ?_) ?_⟩
    · exact if_neg fun heq => Nat.ne_of_lt hj (Actor.errand.inj heq)
    · rw [if_pos rfl]
      exact hm.job place _ record

theorem beginProducer (hm : m.Lawful) (location : Location) (route : Route π) (order : Order π) :
    Watched m g (w.beginProducer plan location route order) := by
  refine ⟨h.workers, errands_append h.errands (fun _ _ => rfl) ?_⟩
  exact hm.producer location (plan.transformer location.queue) route order _

/-- A call of a user is no business of a program. -/
theorem callDirectly (user : Nat) (place : Place) (c : StoreCall) (luck : Luck) :
    Watched m (m.after plan w g (.call user place c luck))
      (w.callDirectly plan user place c luck) := by
  rw [Watch.after_of_asked rfl]
  refine ⟨?_, ?_⟩
  · show (w.call plan (.user user) luck place c).2.service.EveryLoop _
    rw [service_call]
    exact h.workers_of_ne (fun _ _ _ => Actor.noConfusion) _
  · show ∀ i a, (w.call plan (.user user) luck place c).2.errands[i]? = some a → _
    rw [errands_call]
    intro i a ha
    rw [if_neg Actor.noConfusion]
    exact h.errands i a ha

theorem setGroup (queue : QueueId) (new : GroupValue) :
    Watched m g (w.setGroup plan queue new) := by
  unfold State.setGroup
  split
  · exact h
  next e he =>
    exact h.withService
      (h.workers.setGroup (fun _ _ _ => trivial) plan.judge e.address new w.observers)

theorem enroll (location : Location) (address : Addresses) (offers : ShardId → Bool) :
    Watched m g (w.enroll location address offers) := by
  unfold State.enroll
  split
  · exact h.withService (h.workers.enroll location address offers)
  · exact h

theorem update (configs : List GivenConfig) : Watched m g (w.update plan configs) :=
  h.withService (h.workers.update (fun _ _ _ => trivial) plan.judge configs w.observers)

/-- Every move keeps a lawful rule. -/
theorem step (hm : m.Lawful) (move : Move π ω) :
    Watched m (m.after plan w g move) (w.step plan move) := by
  -- a worker that has not begun an iteration has nothing to keep
  have hnew : ∀ queue shard i,
      Loop.Keeps m (g (.worker queue shard i)) (Loop.new : Loop (Deeds π)) := fun _ _ _ => trivial
  cases move with
  | turn queue shard i luck => exact h.turn hm queue shard i luck
  | advance i luck => exact h.advance i luck
  | call user place c luck => exact h.callDirectly user place c luck
  | beginJob i => exact h.beginJob hm i
  | beginProducer location route order => exact h.beginProducer hm location route order
  | pass nanos => exact ⟨h.workers, h.errands⟩
  | clear store => exact ⟨h.workers, h.errands⟩
  | drop queue shard i => exact h.modifyWorker queue shard i fun _ hl => hl
  | register config hasExecutor =>
    refine h.operate fun service hservice => ?_
    cases hregister : w.service.register config hasExecutor with
    | error e =>
      rw [hregister] at hservice
      cases hservice
    | ok result =>
      rw [hregister] at hservice
      cases hservice
      exact h.workers.register hregister
  | create settings => exact h.withService (h.workers.withCells _)
  | enroll location address offers => exact h.enroll location address offers
  | start queue =>
    exact h.operate fun _ hservice =>
      h.workers.modify? hservice LiveQueue.stays_start fun _ hq => hq.start (hnew queue)
  | pause queue =>
    exact h.operate fun _ hservice =>
      h.workers.modify? hservice LiveQueue.stays_pause fun _ hq => hq.pause
  | unpause queue =>
    exact h.operate fun _ hservice =>
      h.workers.modify? hservice LiveQueue.stays_unpause fun _ hq => hq.unpause
  | shutdown queue =>
    exact h.operate fun _ hservice =>
      h.workers.modify? hservice LiveQueue.stays_shutdown fun _ hq => hq.shutdown (hnew queue)
  | wakeup queue shard => exact h.operate fun _ hservice => h.workers.wakeup hservice
  | startAll =>
    exact h.withService
      (h.workers.modifyAll LiveQueue.stays_start fun queue _ hq => hq.start (hnew queue))
  | pauseAll =>
    exact h.withService (h.workers.modifyAll LiveQueue.stays_pause fun _ _ hq => hq.pause)
  | unpauseAll =>
    exact h.withService (h.workers.modifyAll LiveQueue.stays_unpause fun _ _ hq => hq.unpause)
  | shutdownAll =>
    exact h.withService
      (h.workers.modifyAll LiveQueue.stays_shutdown fun queue _ hq => hq.shutdown (hnew queue))
  | update configs => exact h.update configs
  | setGroup queue new => exact h.setGroup queue new
  | observe queue group o =>
    exact h.withService
      (h.workers.modify (LiveQueue.stays_observe · group o) fun _ hq => hq.observe group o)

/-- A request that anybody but a user makes is permitted. -/
theorem permits (hm : m.Lawful) {move : Move π ω} {actor : Actor} {luck : Luck} {d : Deed π}
    (hasked : w.asked plan move = some (actor, luck, d)) (hactor : ∀ n, actor ≠ .user n) :
    m.Permits (g actor) d := by
  unfold State.asked at hasked
  split at hasked
  next queue shard i luck' =>
    split at hasked
    · cases hasked
    next q x hx =>
      split at hasked
      · cases hasked
      · have hturn := Loop.turn_keeps (h.keeps_of_worker? hx)
          (fun _ => hm.round ⟨shard, q.location⟩ (plan.transformer queue) q.mode _) w.now x.gate
        split at hasked
        next d' next heq =>
          rw [heq] at hturn
          cases hasked
          exact hturn.1
        · cases hasked
  next i luck' =>
    split at hasked
    · cases hasked
    next activity hi =>
      have hturn := Activity.turn_keeps (h.errands i activity hi) w.now (.new false)
      split at hasked
      next d' next heq =>
        rw [heq] at hturn
        cases hasked
        exact hturn.1
      · cases hasked
  next user place c luck' =>
    cases hasked
    exact absurd rfl (hactor user)
  · cases hasked

end Watched

end DurableQueue.Works
