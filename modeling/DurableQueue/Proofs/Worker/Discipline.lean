import DurableQueue.Proofs.Worker.Course
import DurableQueue.Proofs.Worker.Ledger

/-!
# The discipline of an iteration

Whatever the store and the consumer answer, an iteration and the job that it hands off follow the
rules of the ledger from the first request to the last one.

* `Disciplined` collects the rules for the exchanges of a whole iteration;
* `iteration_is_disciplined` is the main statement.
-/

namespace DurableQueue

open Iteration

variable {π : Type}

/-- A run of the consumer. -/
def TaskCall.consumes : TaskCall π → Bool
  | .consume _ => true
  | _ => false

/-- A call that removes a row or puts it back. -/
def TaskCall.changes : TaskCall π → Bool
  | .store (.delete _) => true
  | .store (.reenqueue _ _) => true
  | _ => false

/-- A call that ends a transaction. -/
def TaskCall.ends : TaskCall π → Bool
  | .store .commit => true
  | .store .release => true
  | _ => false

namespace Ledger

/-- The ledger of several exchanges. -/
def of (es : List (Exchange (TaskCalls π))) : Ledger :=
  es.foldl (fun l e => l.note e.request e.answer) {}

variable {transformer : Transformer π} {shard : ShardId} {mode : ProcessingMode} {l : Ledger}

theorem handedOff_note (r : TaskCall π) (a : r.Answer) :
    (l.note r a).handedOff = l.handedOff ++ r.handedOff := by
  cases r <;> simp [note, TaskCall.handedOff]

theorem handedOff_afterAll (es : List (Exchange (TaskCalls π))) :
    ((discipline transformer shard mode).afterAll l es).handedOff
      = l.handedOff ++ DurableQueue.handedOff es :=
  Monitor.afterAll_collects Ledger.handedOff (fun r _ => TaskCall.handedOff r)
    (fun _ => handedOff_note) l es

/-- Only the end of a transaction leaves none open. -/
theorem isOpen_note (h : l.isOpen = true) {r : TaskCall π} (a : r.Answer) (hr : r.ends = false) :
    (l.note r a).isOpen = true := by
  cases r with
  | store c =>
    show (l.noteStore c a).isOpen = true
    unfold noteStore
    split
    all_goals first | exact h | rfl | cases hr
  | _ => simpa [note] using h

theorem outcome_note (r : TaskCall π) (a : r.Answer)
    (h : l.outcome.isSome = true ∨ r.consumes = true) :
    (l.note r a).outcome.isSome = true := by
  cases r with
  | consume task => rfl
  | _ => simpa [note, TaskCall.consumes] using h

theorem changed_note (r : TaskCall π) (a : r.Answer) (h : l.changed = true ∨ r.changes = true) :
    (l.note r a).changed = true := by
  cases r with
  | store c =>
    show (l.noteStore c a).changed = true
    unfold noteStore
    split
    all_goals first | rfl | simpa [TaskCall.changes] using h
  | _ => simpa [note, TaskCall.changes] using h

end Ledger

open Ledger

/-- The rules for the exchanges of a whole iteration. -/
structure Disciplined (transformer : Transformer π) (shard : ShardId) (mode : ProcessingMode)
    (es : List (Exchange (TaskCalls π))) : Prop where
  /-- Every request may be made at its point. -/
  permitted : ∀ before e later, es = before ++ e :: later →
    (Ledger.of before).Permits transformer shard mode e.request
  /-- The consumer runs at most once. -/
  consumedOnce : es.countP (fun e => TaskCall.consumes e.request) ≤ 1
  /-- At most one call removes a row or puts it back. -/
  changedOnce : es.countP (fun e => TaskCall.changes e.request) ≤ 1
  /-- A transaction that was begun is ended by one call, and it is released instead of committed
  exactly when it has to be given up. -/
  ended : ∀ before later, es = before ++ ⟨.store .begin, .ok ()⟩ :: later →
    ∃ calls last rest, later = calls ++ last :: rest ∧
      (∀ e ∈ calls, TaskCall.ends e.request = false) ∧ TaskCall.ends last.request = true ∧
      (last.request = .store .release ↔
        (Ledger.of (before ++ ⟨.store .begin, .ok ()⟩ :: calls)).GivesUp mode)

section

variable {transformer : Transformer π} {shard : ShardId} {mode : ProcessingMode} {l : Ledger}
  {es : List (Exchange (TaskCalls π))}

theorem consumes_le_one (h : (discipline transformer shard mode).Keeps l es) :
    es.countP (fun e => TaskCall.consumes e.request) ≤ 1 := by
  refine (h.countP_le_one TaskCall.consumes (fun l => l.outcome.isSome = true) ?_ ?_ ?_).1
  · intro l r hr hp hused
    cases r with
    | consume task => rw [hr.1] at hused; cases hused
    | _ => cases hp
  · exact fun l r a _ hp => outcome_note r a (.inr hp)
  · exact fun l r a _ hused => outcome_note r a (.inl hused)

theorem changes_le_one (h : (discipline transformer shard mode).Keeps l es) :
    es.countP (fun e => TaskCall.changes e.request) ≤ 1 := by
  refine (h.countP_le_one TaskCall.changes (fun l => l.changed = true) ?_ ?_ ?_).1
  · intro l r hr hp hused
    cases r with
    | store c =>
      cases c with
      | delete id => rw [hr.2.1] at hused; cases hused
      | reenqueue id delay => rw [hr.2.1] at hused; cases hused
      | _ => cases hp
    | _ => cases hp
  · exact fun l r a _ hp => changed_note r a (.inr hp)
  · exact fun l r a _ hused => changed_note r a (.inl hused)

/-- An open transaction is ended once, by the call that the ledger asks for. -/
theorem exists_end (h : (discipline transformer shard mode).Keeps l es) (hopen : l.isOpen = true)
    (hclosed : ((discipline transformer shard mode).afterAll l es).isOpen = false) :
    ∃ calls last rest, es = calls ++ last :: rest ∧
      (∀ e ∈ calls, TaskCall.ends e.request = false) ∧ TaskCall.ends last.request = true ∧
      (last.request = .store .release ↔
        ((discipline transformer shard mode).afterAll l calls).GivesUp mode) := by
  induction es generalizing l with
  | nil => rw [Monitor.afterAll_nil, hopen] at hclosed; cases hclosed
  | cons e es ih =>
    obtain ⟨he, hes⟩ := Monitor.keeps_cons.1 h
    -- the transaction stays open up to the first call that ends one
    cases hend : TaskCall.ends e.request with
    | false =>
      obtain ⟨calls, last, rest, rfl, hcalls, hlast, hgives⟩ :=
        ih hes (isOpen_note hopen _ hend) hclosed
      refine ⟨e :: calls, last, rest, rfl, ?_, hlast, hgives⟩
      intro e' he'
      rcases List.mem_cons.1 he' with rfl | he'
      · exact hend
      · exact hcalls e' he'
    | true =>
      refine ⟨[], e, es, rfl, (fun _ h => nomatch h), hend, ?_⟩
      rw [Monitor.afterAll_nil]
      obtain ⟨r, answer⟩ := e
      cases r with
      | store c =>
        cases c with
        | commit => exact iff_of_false (fun h => nomatch h) he.2
        | release => exact iff_of_true rfl he.2
        | _ => cases hend
      | _ => cases hend

/-- Only with an executor a task is handed off. -/
theorem handedOff_eq_nil (hmode : mode ≠ .useExternalExecutor)
    (h : (discipline transformer shard mode).Keeps l es) : handedOff es = [] := by
  refine List.flatMap_eq_nil_iff.2 fun e he => ?_
  obtain ⟨t, ht⟩ := h.allows he
  obtain ⟨r, a⟩ := e
  cases r with
  | handOff record => exact absurd ht.1 hmode
  | _ => rfl

/-- Jobs are run from where the iteration that has handed them off left the ledger. -/
theorem workOff_obeys {records : List TaskRecord} (hmode : mode ≠ .wrapInTransaction)
    (hopen : l.isOpen = false)
    (hrecords : records = [] ∨ ∃ record, records = [record] ∧ l.Holds mode record) :
    (workOff transformer shard records).Obeys (discipline transformer shard mode)
      (fun _ t => t.isOpen = false) l := by
  obtain rfl | ⟨record, rfl, hholds⟩ := hrecords
  · exact hopen
  · exact (processDetached_obeys hmode hholds).bind fun _ _ h => h.2

/-- A whole iteration keeps the rule, and no transaction is open at its end. -/
theorem IsCourse.keeps (h : IsCourse transformer shard mode es) :
    (discipline transformer shard mode).Keeps {} es ∧
      ((discipline transformer shard mode).afterAll {} es).isOpen = false := by
  obtain ⟨own, jobs, outcome, rfl, hown, hjobs⟩ := h
  obtain ⟨hkeeps, hopen, hheld⟩ := (iteration_obeys transformer shard mode).keeps hown
  rw [Monitor.keeps_append, Monitor.afterAll_append, and_assoc]
  refine ⟨hkeeps, ?_⟩
  by_cases hmode : mode = .useExternalExecutor
  · have hrecords := hheld hmode
    rw [handedOff_afterAll] at hrecords
    have hwrap : mode ≠ .wrapInTransaction := by rw [hmode]; decide
    exact (workOff_obeys hwrap hopen hrecords).keeps hjobs
  · -- without an executor there are no jobs
    rw [handedOff_eq_nil hmode hkeeps] at hjobs
    cases hjobs
    exact ⟨Monitor.keeps_nil, hopen⟩

/-- **The discipline of an iteration under faults.** Whatever the calls of the store and the
consumer answer, a whole iteration in any mode keeps the rules. -/
theorem iteration_is_disciplined (h : IsCourse transformer shard mode es) :
    Disciplined transformer shard mode es := by
  obtain ⟨hkeeps, hclosed⟩ := h.keeps
  refine ⟨hkeeps, consumes_le_one hkeeps, changes_le_one hkeeps, fun before later heq => ?_⟩
  subst heq
  rw [Monitor.keeps_append, Monitor.keeps_cons] at hkeeps
  rw [Monitor.afterAll_append, Monitor.afterAll_cons] at hclosed
  obtain ⟨calls, last, rest, hlater, hcalls, hlast, hgives⟩ := exists_end hkeeps.2.2 rfl hclosed
  refine ⟨calls, last, rest, hlater, hcalls, hlast, ?_⟩
  rwa [← Monitor.afterAll_cons, ← Monitor.afterAll_append] at hgives

end

/-- A task is handed off and finished, and its row cannot be removed. -/
def failedFinish (record : TaskRecord) : List (Exchange (TaskCalls String)) :=
  [⟨.store .begin, .ok ()⟩, ⟨.clock, 0⟩, ⟨.failureSettings, {}⟩,
    ⟨.store (.pick {}), .ok (some record)⟩, ⟨.clock, 5⟩, ⟨.notify record (.picked (.clamp 5)), ()⟩,
    ⟨.store .commit, .ok ()⟩, ⟨.handOff record, ()⟩,
    ⟨.notify record .started, ()⟩, ⟨.clock, 7⟩,
    ⟨.consume (.ofRecord "main" record record.payload), .result .finish⟩, ⟨.clock, 9⟩,
    ⟨.notify record (.executed .finish (.clamp 2)), ()⟩,
    ⟨.store .begin, .ok ()⟩, ⟨.store (.delete record.id), .error (.database "gone")⟩,
    ⟨.store .release, ()⟩, ⟨.notify record (.crashed (.store (.database "gone"))), ()⟩,
    ⟨.notify record .finished, ()⟩]

theorem failedFinish_is_disciplined :
    Disciplined .text "main" .useExternalExecutor (failedFinish default) := by
  refine iteration_is_disciplined
    ⟨(failedFinish default).take 8, (failedFinish default).drop 8, .ok .processed, rfl, ?_, ?_⟩
  · exact .ask _ <| .ask _ <| .ask _ <| .ask _ <| .ask _ <| .ask _ <| .ask _ <| .ask _ <| .refl _
  · exact .ask _ <| .ask _ <| .ask _ <| .ask _ <| .ask _ <| .ask _ <| .ask _ <| .ask _ <| .ask _ <|
      .ask _ <| .refl _

end DurableQueue
