import DurableQueue.Proofs.Service.Registration
import DurableQueue.Service.Awaiting
import Mathlib.Order.Bounds.Basic

/-!
# Waiting for several pools by one deadline

Pools that are awaited one after the other within one budget of time are awaited as if all at once:
what is left of the budget always ends at the same deadline, and a pool that has ended stays ended.

* `Endings` says when pools end, and `Endings.answer` answers the requests of waiting by it;
* `Over` says that waiting for some pools is over at some moment, and not later than it has to be.
  One pool is awaited in `run_awaitWithin`, a list of pools in `run_awaitPools` and groups of pools
  in `run_awaitGroups`;
* `Endings.IsEnd` is the moment at which waiting for all pools at once would be over, and
  `awaited_as_if_at_once` the main statement.
-/

namespace DurableQueue.Awaiting

variable {P G : Type}

/-! ### When pools end -/

/-- When pools end, if ever, and whether a pool that ends at the very moment at which time is up is
found ended. -/
structure Endings (P : Type) where
  endsAt? : P → Option Nat
  inTime : P → Bool

namespace Endings

/-- Whether a pool has ended by some moment. -/
def endedBy (e : Endings P) (p : P) (t : Nat) : Bool := (e.endsAt? p).any (· ≤ t)

/-- Whether a pool is found ended at some moment. -/
def isFound (e : Endings P) (p : P) (now : Nat) : Bool :=
  if e.endsAt? p = some now then e.inTime p else e.endedBy p now

/-- Wait for a pool until some moment: whether it is found ended, and when the wait is over. -/
def await (e : Endings P) (p : P) (deadline now : Nat) : Bool × Nat :=
  match e.endsAt? p with
  | none => (false, deadline)
  | some t => if t < deadline then (true, max now t) else (e.isFound p deadline, deadline)

/-- Answer a request of waiting; gives the answer and the moment after it. -/
def answer (e : Endings P) : (c : AwaitCall P) → Nat → c.Answer × Nat
  | .clock, now => (now, now)
  | .awaitPool p timeout, now => e.await p (now + timeout.nanos) now
  | .hasEnded p, now => (e.isFound p now, now)

/-- The first moment from a start on at which all of some pools have ended or a time is up. -/
def IsEnd (e : Endings P) (pools : List P) (start : Nat) (timeout : Delay) (later : Nat) : Prop :=
  IsLeast {t | start ≤ t ∧ (t = start + timeout.nanos ∨ ∀ p ∈ pools, e.endedBy p t = true)} later

variable {e : Endings P} {p : P} {t t' deadline now : Nat}

theorem endedBy_eq_true_iff : e.endedBy p t = true ↔ ∃ s, e.endsAt? p = some s ∧ s ≤ t := by
  simp [endedBy, Option.any_eq_true]

/-- A pool that has ended stays ended. -/
theorem endedBy_mono (h : e.endedBy p t = true) (ht : t ≤ t') : e.endedBy p t' = true := by
  obtain ⟨s, hs, hle⟩ := endedBy_eq_true_iff.1 h
  exact endedBy_eq_true_iff.2 ⟨s, hs, hle.trans ht⟩

/-- Away from the moment at which it ends, a pool is found ended when it is. -/
theorem isFound_of_ne (h : e.endsAt? p ≠ some t) : e.isFound p t = e.endedBy p t := if_neg h

end Endings

/-! ### When waiting is over -/

/-- Waiting for some pools from `now` on is over at `later`: they have ended or the deadline has
come, and neither was the case before. -/
structure Over (e : Endings P) (deadline : Nat) (pools : List P) (now later : Nat) : Prop where
  le : now ≤ later
  le_deadline : later ≤ deadline
  reason : later = deadline ∨ ∀ p ∈ pools, e.endedBy p later = true
  least : ∀ t, now ≤ t → (∀ p ∈ pools, e.endedBy p t = true) → later ≤ t

/-- A budget of time ends at a deadline. -/
def LastsUntil (limit : TimeLimit) (deadline now : Nat) : Prop :=
  now + limit.remaining.nanos = deadline

variable {e : Endings P} {p : P} {pools pools' : List P} {deadline now later latest : Nat}
  {limit : TimeLimit}

theorem over_nil (h : now ≤ deadline) : Over e deadline [] now now where
  le := le_refl now
  le_deadline := h
  reason := .inr (by simp)
  least := by
    intro t ht _
    exact ht

/-- Waiting for some pools and then for others is waiting for all of them. -/
theorem Over.append (h : Over e deadline pools now later)
    (h' : Over e deadline pools' later latest) :
    Over e deadline (pools ++ pools') now latest where
  le := h.le.trans h'.le
  le_deadline := h'.le_deadline
  reason := by
    rcases h'.reason with hup | hended'
    · exact .inl hup
    · rcases h.reason with hup | hended
      · -- the time was up before, so it still is
        have hle := h'.le
        have hle' := h'.le_deadline
        exact .inl (by omega)
      · refine .inr fun p hp => ?_
        rcases List.mem_append.1 hp with hp | hp
        · exact Endings.endedBy_mono (hended p hp) h'.le
        · exact hended' p hp
  least := by
    intro t ht hended
    have hlater : later ≤ t := h.least t ht fun p hp => hended p (List.mem_append_left _ hp)
    exact h'.least t hlater fun p hp => hended p (List.mem_append_right _ hp)

/-- The moment at which waiting is over tells which of the pools end in time. -/
theorem Over.endedBy_eq (h : Over e deadline pools now later) (hp : p ∈ pools) :
    e.endedBy p deadline = e.endedBy p later := by
  rcases h.reason with rfl | hended
  · rfl
  · rw [hended p hp, Endings.endedBy_mono (hended p hp) h.le_deadline]

theorem Over.isEnd {start : Nat} {timeout : Delay}
    (h : Over e (start + timeout.nanos) pools start later) : e.IsEnd pools start timeout later := by
  refine ⟨⟨h.le, h.reason⟩, ?_⟩
  rintro t ⟨ht, rfl | hended⟩
  · exact h.le_deadline
  · exact h.least t ht hended

/-! ### Awaiting pools -/

theorem LastsUntil.le (h : LastsUntil limit deadline now) : now ≤ deadline := by
  rw [← h]
  exact Nat.le_add_right _ _

/-- A budget that ends at the deadline still does so after a wait until some moment before it. -/
theorem LastsUntil.spend (h : LastsUntil limit deadline now) (hle : now ≤ later)
    (hdeadline : later ≤ deadline) :
    LastsUntil (limit.spend (.clamp (later - now))) deadline later := by
  have hlimit := limit.remaining.le_limit
  simp only [LastsUntil, TimeLimit.spend, Delay.nanos_sub, Delay.nanos_clamp] at h ⊢
  omega

/-- A wait for a pool before the deadline is over when the pool has ended or at the deadline. -/
theorem await_over (hne : e.endsAt? p ≠ some deadline) (hnow : now ≤ deadline) :
    ∃ later, e.await p deadline now = (e.endedBy p deadline, later) ∧
      Over e deadline [p] now later := by
  unfold Endings.await
  cases hend : e.endsAt? p with
  | none =>
    have hnever : ∀ t, e.endedBy p t = false := by simp [Endings.endedBy, hend]
    refine ⟨deadline, by rw [hnever], hnow, le_refl _, .inl rfl, ?_⟩
    intro t _ hended
    have hp := hended p (List.mem_singleton_self p)
    rw [hnever] at hp
    cases hp
  | some s =>
    have hended : ∀ t, e.endedBy p t = true ↔ s ≤ t := by simp [Endings.endedBy, hend]
    by_cases hs : s < deadline
    · refine ⟨max now s, ?_, le_max_left _ _, max_le hnow hs.le, .inr ?_, ?_⟩
      · simp only [if_pos hs]
        rw [(hended deadline).2 hs.le]
      · simp [hended]
      · intro t ht hall
        exact max_le ht ((hended t).1 (hall p (List.mem_singleton_self p)))
    · refine ⟨deadline, ?_, hnow, le_refl _, .inl rfl, ?_⟩
      · simp only [if_neg hs]
        rw [Endings.isFound_of_ne hne]
      · intro t _ hall
        have hle := (hended t).1 (hall p (List.mem_singleton_self p))
        omega

/-- A pool is awaited until it has ended or the deadline has come. -/
theorem run_awaitWithin (hlimit : LastsUntil limit deadline now)
    (hne : e.endsAt? p ≠ some deadline) :
    ∃ limit' later,
      (awaitWithin limit p).run e.answer now = ((e.endedBy p deadline, limit'), later) ∧
        LastsUntil limit' deadline later ∧ Over e deadline [p] now later := by
  by_cases hzero : limit.remaining.isZero = true
  · -- nothing is left, so the deadline is now
    have hup : now = deadline := by
      simp only [LastsUntil, Delay.isZero, beq_iff_eq] at hlimit hzero
      omega
    subst hup
    refine ⟨limit, now, ?_, hlimit, le_refl _, le_refl _, .inl rfl, fun t ht _ => ht⟩
    rw [← Endings.isFound_of_ne hne]
    simp [awaitWithin, TimeLimit.offer, hzero, hasEnded, Program.run, Endings.answer]
  · obtain ⟨later, hawait, hover⟩ := await_over hne hlimit.le
    refine ⟨limit.spend (.clamp (later - now)), later, ?_, hlimit.spend hover.le hover.le_deadline,
      hover⟩
    rw [← hlimit] at hawait hne hover ⊢
    have hoffer : limit.offer = some limit.remaining := if_neg hzero
    cases hended : e.endedBy p (now + limit.remaining.nanos) with
    | true =>
      simp [awaitWithin, hoffer, clock, awaitPool, Program.run, Endings.answer, hawait, hended]
    | false =>
      -- the pool is looked at again, at the deadline
      have hlater : later = now + limit.remaining.nanos := by
        rcases hover.reason with hup | hall
        · exact hup
        · have hin := Endings.endedBy_mono (hall p (List.mem_singleton_self p)) hover.le_deadline
          rw [hended] at hin
          cases hin
      subst hlater
      simp [awaitWithin, hoffer, clock, awaitPool, hasEnded, Program.run, Endings.answer, hawait,
        hended, Endings.isFound_of_ne hne]

/-- Pools are awaited until all have ended or the deadline has come; those are given that have not
ended by then. -/
theorem run_awaitPools (hlimit : LastsUntil limit deadline now)
    (hne : ∀ p ∈ pools, e.endsAt? p ≠ some deadline) :
    ∃ limit' later,
      (awaitPools limit pools).run e.answer now
          = ((pools.filter fun p => !e.endedBy p deadline, limit'), later) ∧
        LastsUntil limit' deadline later ∧ Over e deadline pools now later := by
  induction pools generalizing limit now with
  | nil =>
    exact ⟨limit, now, rfl, hlimit, over_nil hlimit.le⟩
  | cons p pools ih =>
    obtain ⟨limit₁, later₁, hrun₁, hlimit₁, hover₁⟩ := run_awaitWithin hlimit (hne p (by simp))
    obtain ⟨limit₂, later₂, hrun₂, hlimit₂, hover₂⟩ :=
      ih hlimit₁ fun p' hp' => hne p' (List.mem_cons_of_mem _ hp')
    refine ⟨limit₂, later₂, ?_, hlimit₂, hover₁.append hover₂⟩
    cases hended : e.endedBy p deadline <;>
      simp [awaitPools, Program.run_bind, hrun₁, hrun₂, hended, Program.run]

/-- Groups of pools are awaited until all pools have ended or the deadline has come; those are given
that have a pool that has not ended by then. -/
theorem run_awaitGroups (pools : G → List P) (groups : List G)
    (hlimit : LastsUntil limit deadline now)
    (hne : ∀ g ∈ groups, ∀ p ∈ pools g, e.endsAt? p ≠ some deadline) :
    ∃ limit' later,
      (awaitGroups pools limit groups).run e.answer now
          = ((groups.filter fun g => (pools g).any fun p => !e.endedBy p deadline, limit'), later) ∧
        LastsUntil limit' deadline later ∧ Over e deadline (groups.flatMap pools) now later := by
  induction groups generalizing limit now with
  | nil =>
    exact ⟨limit, now, rfl, hlimit, over_nil hlimit.le⟩
  | cons g groups ih =>
    obtain ⟨limit₁, later₁, hrun₁, hlimit₁, hover₁⟩ := run_awaitPools hlimit (hne g (by simp))
    obtain ⟨limit₂, later₂, hrun₂, hlimit₂, hover₂⟩ :=
      ih hlimit₁ fun g' hg' => hne g' (List.mem_cons_of_mem _ hg')
    refine ⟨limit₂, later₂, ?_, hlimit₂, hover₁.append hover₂⟩
    by_cases hlate : ∃ p ∈ pools g, e.endedBy p deadline = false
    · simp [awaitGroups, Program.run_bind, hrun₁, hrun₂, hlate, Program.run]
    · have hended : ∀ p ∈ pools g, e.endedBy p deadline = true := by simpa using hlate
      have hnone : (pools g).filter (fun p => !e.endedBy p deadline) = [] :=
        List.filter_eq_nil_iff.2 fun p hp => by simp [hended p hp]
      simp [awaitGroups, Program.run_bind, hrun₁, hrun₂, hnone, hlate]

/-- Waiting for the pools of some names comes out as if all of them were awaited at once: it is over
when all have ended or time is up, and what is pending are the names, each once and in ascending
order, with a pool that has not ended at that moment. -/
structure AsIfAtOnce (e : Endings P) (pools : String → List P) (names : List String) (start : Nat)
    (timeout : Delay) (pending : List String) (later : Nat) : Prop where
  isEnd : e.IsEnd (names.flatMap pools) start timeout later
  ascending : pending.Pairwise (· < ·)
  mem_pending_iff : ∀ name,
    name ∈ pending ↔ name ∈ names ∧ ∃ p ∈ pools name, e.endedBy p later = false

theorem Over.asIfAtOnce {pools : String → List P} {names : List String} {start : Nat}
    {timeout : Delay} (h : Over e (start + timeout.nanos) (names.flatMap pools) start later)
    (hnames : names.Pairwise (· < ·)) :
    AsIfAtOnce e pools names start timeout
      (names.filter fun name => (pools name).any fun p => !e.endedBy p (start + timeout.nanos))
      later := by
  refine ⟨h.isEnd, hnames.filter _, fun name => ?_⟩
  rw [List.mem_filter]
  refine and_congr_right fun hname => ?_
  rw [List.any_eq_true]
  refine exists_congr fun p => and_congr_right fun hp => ?_
  rw [h.endedBy_eq (List.mem_flatMap.2 ⟨name, hname, hp⟩), Bool.not_eq_true']

end DurableQueue.Awaiting

/-! ### The pools of a service -/

namespace DurableQueue

namespace Service

variable {A : Signature} {ω : Type}

theorem awaitTermination_of_some {s : Service A ω} {queue : QueueId} {q : LiveQueue A ω}
    (hq : s.queues.get? queue = some q) (timeout : Delay) :
    s.awaitTermination queue timeout
      = .ok ((Awaiting.awaitPools ⟨timeout⟩ (q.pools.keys.map fun shard => (queue, shard))).bind
          fun x => .done (x.1.map (·.2))) := by
  simp only [awaitTermination, Service.queue, poolsOf, hq]
  rfl

/-- **Awaiting pools one after the other is as good as awaiting all at once.** Whenever the pools
end, but for the moment at which time is up: waiting for all queues is over when all pools have
ended or time is up, whichever comes first, and gives exactly the queues with a pool that has not
ended then. Waiting for one queue does the same with the shards of that queue. -/
theorem awaited_as_if_at_once (s : Service A ω) (e : Awaiting.Endings (QueueId × ShardId))
    (start : Nat) (timeout : Delay) :
    ((∀ queue, ∀ p ∈ s.poolsOf queue, e.endsAt? p ≠ some (start + timeout.nanos)) →
      ∃ pending later, (s.awaitTerminationAll timeout).run e.answer start = (pending, later) ∧
        Awaiting.AsIfAtOnce e s.poolsOf s.queues.keys start timeout pending later) ∧
    ∀ queue q, s.queues.get? queue = some q →
      (∀ shard ∈ q.pools.keys, e.endsAt? (queue, shard) ≠ some (start + timeout.nanos)) →
      ∃ waiting pending later, s.awaitTermination queue timeout = .ok waiting ∧
        waiting.run e.answer start = (pending, later) ∧
        Awaiting.AsIfAtOnce e (fun shard => [(queue, shard)]) q.pools.keys start timeout pending
          later := by
  have hlimit : Awaiting.LastsUntil ⟨timeout⟩ (start + timeout.nanos) start := rfl
  constructor
  · intro hne
    obtain ⟨limit, later, hrun, -, hover⟩ :=
      Awaiting.run_awaitGroups s.poolsOf s.queues.keys hlimit fun queue _ => hne queue
    refine ⟨_, later, ?_, hover.asIfAtOnce s.queues.keys_ascending⟩
    simp only [awaitTerminationAll, Program.bind_eq, Program.run_bind, hrun]
    rfl
  · intro queue q hq hne
    have hshards : ∀ p ∈ q.pools.keys.map fun shard => (queue, shard),
        e.endsAt? p ≠ some (start + timeout.nanos) := by simpa using hne
    obtain ⟨limit, later, hrun, -, hover⟩ := Awaiting.run_awaitPools hlimit hshards
    rw [List.map_eq_flatMap] at hover
    refine ⟨_, _, later, awaitTermination_of_some hq timeout, ?_,
      hover.asIfAtOnce q.pools.keys_ascending⟩
    rw [Program.run_bind, hrun, List.filter_map]
    simp [Program.run, Function.comp_def]

/-- Two queues on two shards. -/
def twoQueues : Service (AwaitCalls Unit) Unit :=
  ((new ["east", "west"]).addNew ⟨.of "mail" "tasks", {}⟩).addNew ⟨.of "orders" "tasks", {}⟩

/-- One pool of the first queue never ends, the other one had ended before the waiting began. The
pools of the second queue end four seconds later. -/
def oneHangs : Awaiting.Endings (QueueId × ShardId) where
  endsAt? p :=
    if p = ("mail", "east") then none else if p.1 = "mail" then some 7 else some 4000000100
  inTime _ := false

/-- The pool that never ends uses up all of the five seconds, yet no other queue is reported. -/
theorem hanging_pool_hides_none :
    (∀ queue, ∀ p ∈ twoQueues.poolsOf queue,
      oneHangs.endsAt? p ≠ some (100 + (Delay.ofSeconds 5).nanos)) ∧
    (twoQueues.awaitTerminationAll (.ofSeconds 5)).run oneHangs.answer 100
      = (["mail"], 5000000100) ∧
    Awaiting.AsIfAtOnce oneHangs twoQueues.poolsOf ["mail", "orders"] 100 (.ofSeconds 5) ["mail"]
      5000000100 ∧
    ∃ orders, twoQueues.queues.get? "orders" = some orders ∧
      Awaiting.AsIfAtOnce oneHangs (fun shard => [("orders", shard)]) orders.pools.keys 100
        (.ofSeconds 5) [] 4000000100 := by
  have hne : ∀ p, oneHangs.endsAt? p ≠ some (100 + (Delay.ofSeconds 5).nanos) := by
    intro p
    simp only [oneHangs]
    split
    · simp
    · split <;> decide
  have hrun : (twoQueues.awaitTerminationAll (.ofSeconds 5)).run oneHangs.answer 100
      = (["mail"], 5000000100) := rfl
  have hq : twoQueues.queues.get? "orders" = some _ := rfl
  obtain ⟨hall, hone⟩ := awaited_as_if_at_once twoQueues oneHangs 100 (.ofSeconds 5)
  obtain ⟨pending, later, heq, hpending⟩ := hall fun _ p _ => hne p
  rw [hrun] at heq
  cases heq
  obtain ⟨waiting, pending, later, hwaiting, heq, hshards⟩ :=
    hone "orders" _ hq fun shard _ => hne ("orders", shard)
  cases hwaiting
  have hended : (pending, later) = ([], 4000000100) := heq.symm
  cases hended
  exact ⟨fun _ p _ => hne p, hrun, hpending, _, hq, hshards⟩

end Service

end DurableQueue
