import DurableQueue.Proofs.Service.Sharing
import DurableQueue.Proofs.Works.Books

/-!
# The works agree with the settings

Whatever moves the works make: as long as the processing settings are changed by configurations
only, the pools of every queue agree with the live settings and with each other.

* `step_steady` is about one move and `run_steady` about several;
* `queues_agree` is the main statement.
-/

namespace DurableQueue.Works

variable {π ω υ : Type} {plan : Plan π ω υ} {w : State π ω υ}

/-- All queues in service are steady. -/
def Steady (w : State π ω υ) : Prop := w.service.Steady

theorem worker?_congr {w' : State π ω υ} (hservice : w'.service = w.service) (queue : QueueId)
    (shard : ShardId) (i : Nat) : w'.worker? queue shard i = w.worker? queue shard i := by
  rw [State.worker?, State.worker?, hservice]

namespace Steady

theorem congr {w' : State π ω υ} (h : Steady w) (hservice : w'.service = w.service) :
    Steady w' := by
  rw [Steady, hservice]
  exact h

theorem operate (h : Steady w) {result : Except ServiceError (Service (Deeds π) ω)}
    (hresult : ∀ service, result = .ok service → service.Steady) : Steady (w.operate result) := by
  cases result with
  | error e => exact h
  | ok service => exact hresult service rfl

/-- Something that a worker does, if it is anything at all. -/
theorem modifyWorker (h : Steady w) {queue : QueueId} {shard : ShardId} {i : Nat}
    {f : Worker (Deeds π) → Worker (Deeds π)}
    (hf : ∀ q x, w.worker? queue shard i = some (q, x) →
      f x = x ∨ x.exited = false ∧ x.Acts (f x)) :
    Steady (w.modifyWorker queue shard i f) := by
  refine Service.Steady.modifyPool h fun q hq hsteady => ?_
  refine hsteady.modifyWorker fun p x hp hx => hf q x ?_
  rw [State.worker?, hq]
  show ((q.pools.get? shard).bind fun p => p.workers[i]?).map _ = _
  rw [hp, Option.bind_some, hx, Option.map_some]

theorem turn (h : Steady w) (queue : QueueId) (shard : ShardId) (i : Nat) (luck : Luck) :
    Steady (w.turn plan queue shard i luck) := by
  unfold State.turn
  split
  · exact h
  next q x hx =>
    split
    · exact h
    next hexited =>
      -- whatever the turn is, it is the turn of this worker
      have hworker : ∀ {w' : State π ω υ} {f : Worker (Deeds π) → Worker (Deeds π)},
          w'.service = w.service → x.Acts (f x) → Steady (w'.modifyWorker queue shard i f) := by
        intro w' f hservice hacts
        refine (h.congr hservice).modifyWorker fun q' x' hx' => .inr ?_
        rw [worker?_congr hservice, hx] at hx'
        cases hx'
        exact ⟨eq_false_of_ne_true hexited, hacts⟩
      split
      next loop gate heq => exact hworker rfl (.moves heq)
      next d next heq => exact hworker (service_serve luck) (.asks heq _)
      · exact h
      · exact hworker rfl (.exits x)
      next heq => exact hworker rfl (.fails heq)

theorem drop (h : Steady w) (queue : QueueId) (shard : ShardId) (i : Nat) :
    Steady (w.drop queue shard i) := by
  refine h.modifyWorker fun q x _ => ?_
  obtain ⟨gate, loop, aborted, exited⟩ := x
  cases exited with
  | true => exact .inl rfl
  | false =>
    cases aborted with
    | true => exact .inr ⟨rfl, .exits _⟩
    | false => exact .inl rfl

theorem advance (h : Steady w) (i : Nat) (luck : Luck) : Steady (w.advance plan i luck) := by
  unfold State.advance
  split
  · exact h
  · split
    · exact h
    · exact h.congr (service_serve luck)
    · exact h
    · exact h
    · exact h

theorem beginJob (h : Steady w) (i : Nat) : Steady (w.beginJob plan i) := by
  unfold State.beginJob
  split
  · exact h
  · exact h

/-- A change of one group of the settings that is not the processing settings. -/
theorem setGroup (h : Steady w) (queue : QueueId) {new : GroupValue}
    (hnew : ∀ v, new ≠ .processing v) : Steady (w.setGroup plan queue new) := by
  unfold State.setGroup
  split
  · exact h
  · exact Service.Steady.setGroup h plan.judge (fun v hv => absurd hv (hnew v)) w.observers

/-- A queue that is registered with settings of others shares them. -/
theorem enroll (h : Steady w) (location : Location) (address : Addresses)
    (offers : ShardId → Bool) : Steady (w.enroll location address offers) := by
  unfold State.enroll
  split
  next haddress => exact Service.Steady.enroll h haddress offers
  next => exact h

theorem modify? (h : Steady w) {queue : QueueId}
    {f : LiveQueue (Deeds π) ω → LiveQueue (Deeds π) ω}
    (hf : (w.service.modify queue f).Steady) : Steady (w.operate (w.service.modify? queue f)) :=
  h.operate fun _ hservice => by
    rw [Service.eq_of_modify? hservice]
    exact hf

end Steady

/-- Every move keeps the queues steady, but a change of the processing settings that does not come
from a configuration. -/
theorem step_steady (h : Steady w) {move : Move π ω}
    (hmove : ∀ queue v, move ≠ .setGroup queue (.processing v)) : Steady (w.step plan move) := by
  cases move with
  | pass nanos => exact h
  | register config hasExecutor =>
    refine h.operate fun service hservice => ?_
    cases hregister : w.service.register config hasExecutor with
    | error e =>
      rw [hregister] at hservice
      cases hservice
    | ok result =>
      rw [hregister] at hservice
      cases hservice
      exact Service.Steady.register h hregister
  | create settings => exact Service.Steady.create h settings
  | enroll location address offers => exact h.enroll location address offers
  | start queue => exact h.modify? (Service.Steady.start h queue)
  | pause queue => exact h.modify? (Service.Steady.pause h queue)
  | unpause queue => exact h.modify? (Service.Steady.unpause h queue)
  | shutdown queue => exact h.modify? (Service.Steady.shutdown h queue)
  | wakeup queue shard =>
    refine h.operate fun _ hservice => ?_
    rw [Service.eq_of_wakeup hservice]
    exact Service.Steady.modifyPool h fun _ _ hq => hq.wakeup shard
  | startAll => exact Service.modifyAll_keeps (fun _ queue hs => hs.start queue) h
  | pauseAll => exact Service.modifyAll_keeps (fun _ queue hs => hs.pause queue) h
  | unpauseAll => exact Service.modifyAll_keeps (fun _ queue hs => hs.unpause queue) h
  | shutdownAll => exact Service.modifyAll_keeps (fun _ queue hs => hs.shutdown queue) h
  | update configs => exact Service.Steady.update h plan.judge configs w.observers
  | setGroup queue new => exact h.setGroup queue fun v hv => hmove queue v (by rw [hv])
  | observe queue group o => exact Service.Steady.observe h queue group o
  | turn queue shard i luck => exact h.turn queue shard i luck
  | drop queue shard i => exact h.drop queue shard i
  | beginJob i => exact h.beginJob i
  | beginProducer location route order => exact h
  | advance i luck => exact h.advance i luck
  | call user place c luck => exact h.congr (service_call ..)
  | clear store => exact h

theorem run_steady (h : Steady w) {moves : List (Move π ω)}
    (hmoves : ∀ queue v, .setGroup queue (.processing v) ∉ moves) : Steady (w.run plan moves) := by
  induction moves generalizing w with
  | nil => exact h
  | cons move moves ih =>
    refine ih (step_steady h fun queue v heq => ?_) fun queue v hmem => ?_
    · exact hmoves queue v (heq ▸ List.mem_cons_self)
    · exact hmoves queue v (List.mem_cons_of_mem _ hmem)

/-- **Queues agree with their settings.** At any time each pool of a queue has as many workers as
the live settings say if it was started and is not shut down, and none otherwise; the pools agree
with each other; their workers are paused when they are; and the live mode is the one that the queue
was registered with. Observers may have refused any change, the processing settings may have been
changed by any configurations, and queues may share their settings. -/
theorem queues_agree (plan : Plan π ω υ) (shards : List ShardId) (observers : υ)
    (stores : Nat → Store) {moves : List (Move π ω)}
    (hmoves : ∀ queue v, .setGroup queue (.processing v) ∉ moves) {queue : QueueId}
    {q : LiveQueue (Deeds π) ω}
    (hq : ((State.initial shards observers stores).run plan moves).service.queues.get? queue
      = some q) : q.Agrees := by
  have hinitial : Steady (State.initial shards observers stores : State π ω υ) :=
    Service.steady_new shards
  exact ((run_steady hinitial hmoves).queues queue q hq).agrees

/-- Somebody refuses every change. -/
def stubborn : Plan String Unit Unit :=
  ⟨fun _ => .text, fun _ => 0, fun _ _ _ _ => (.error (.rejected "processing" "not now"), ())⟩

/-- Two workers are started on each shard. Then a third one is to be started on each, which is
refused after it was done. -/
def resistance : List (Move String Unit) :=
  [.register ⟨.of "orders" "tasks", { processing := { threadCount := .clamp 2 } }⟩ false,
    .startAll, .observe "orders" .processing (), .pauseAll,
    .update [⟨.of "orders" "tasks", .values { processing := { threadCount := .clamp 3 } }⟩]]

def resisted : State String Unit Unit :=
  (State.initial ["east", "west"] () fun _ => .empty {}).run stubborn resistance

theorem resisted_agrees : ∃ q, resisted.service.queues.get? "orders" = some q ∧
    (q.pools.get? "east").map (fun p => (p.live, p.retired)) = some ([0, 1], [2]) ∧
    (q.pools.get? "west").map (fun p => (p.live, p.retired)) = some ([0, 1], [2]) ∧ q.Agrees := by
  have hmoves : ∀ queue v, .setGroup queue (.processing v) ∉ resistance := by simp [resistance]
  have hq : resisted.service.queues.get? "orders" = some _ := rfl
  exact ⟨_, hq, rfl, rfl, queues_agree stubborn _ _ _ hmoves hq⟩

end DurableQueue.Works
