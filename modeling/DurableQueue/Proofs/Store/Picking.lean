import DurableQueue.Proofs.Store.Rows

/-!
# The row that is picked

A pick claims the row of its queue that has been due for longest, and changes nothing else.

* `Store.IsDue` says which rows may be picked, and `Row.DueBefore` orders them by the time at which
  they became visible, then by their identifiers;
* `dueBefore_of_oldest?`: the search finds the first row in this order, since it meets the rows in
  the order of their identifiers;
* `TaskRecord.ClaimedAs` says field by field what a claim makes of a task, and `Store.Rewritten`
  that one row has become another task and all others stay;
* `pick_claims_first_due` is the main statement.
-/

namespace DurableQueue

/-- Whether a row comes before another one among those that may be picked. -/
def Row.DueBefore (a b : Row) : Prop :=
  a.record.nextProcessAt < b.record.nextProcessAt ∨
    a.record.nextProcessAt = b.record.nextProcessAt ∧ a.id < b.id

theorem Row.DueBefore.trans {a b c : Row} (hab : a.DueBefore b) (hbc : b.DueBefore c) :
    a.DueBefore c := by
  rcases hab with hab | ⟨hab, hid⟩
  · rcases hbc with hbc | ⟨hbc, -⟩
    · exact .inl (lt_trans hab hbc)
    · exact .inl (hbc ▸ hab)
  · rcases hbc with hbc | ⟨hbc, hid'⟩
    · exact .inl (hab ▸ hbc)
    · exact .inr ⟨hab.trans hbc, Int.lt_trans hid hid'⟩

/-- What becomes of a task that is claimed: it has one more attempt, up to the greatest counter, and
is hidden for the failure delay of the attempts before. The rest of it stays. -/
structure TaskRecord.ClaimedAs (now : Instant) (failure : FailureSettings)
    (before after : TaskRecord) : Prop where
  attempts : after.attempts.val = min (before.attempts.val + 1) Decimal.max32
  totalAttempts : after.totalAttempts.val = min (before.totalAttempts.val + 1) Decimal.max32
  nextProcessAt : after.nextProcessAt = now.shift (failure.delayForAttempt before.attempts)
  id : after.id = before.id
  payload : after.payload = before.payload
  reenqueueAttempts : after.reenqueueAttempts = before.reenqueueAttempts
  createdAt : after.createdAt = before.createdAt
  extra : after.extra = before.extra

namespace Store

variable {s : Store} {l : Location} {now : Instant} {r : Row}

/-- A row of a queue that may be picked at a time. -/
structure IsDue (s : Store) (now : Instant) (l : Location) (r : Row) : Prop where
  mem : r ∈ s.rows
  table : r.table = l.table
  queue : r.queue = l.queue
  visible : r.record.nextProcessAt ≤ now

/-- A row has another task, and everything else is as it was. -/
structure Rewritten (s : Store) (r : Row) (record : TaskRecord) (s' : Store) : Prop where
  rows : s'.rows = s.rows.map fun q => if q = r then { r with record } else q
  lastId : s'.lastId = s.lastId
  schema : s'.schema = s.schema

theorem isDue_iff : s.IsDue now l r ↔ r ∈ s.rows.filter fun r => r.isAt l && r.isVisible now := by
  rw [List.mem_filter, Bool.and_eq_true, Row.isAt_iff]
  exact ⟨fun h => ⟨h.mem, ⟨h.table, h.queue⟩, h.visible⟩, fun h => ⟨h.1, h.2.1.1, h.2.1.2, h.2.2⟩⟩

/-! ### The search for the oldest row -/

theorem oldest?_eq_none_iff {rs : List Row} : oldest? rs = none ↔ rs = [] := by
  cases rs with
  | nil => simp [oldest?]
  | cons q rs =>
    simp only [oldest?, reduceCtorEq, iff_false]
    split
    · simp
    · split <;> simp

/-- Of two rows in the order of their identifiers the second has to be sooner to come before. -/
theorem dueBefore_of_not_sooner {a b : Row} (hid : a.id < b.id) (h : sooner b a = false) :
    a.DueBefore b := by
  have hle : a.record.nextProcessAt ≤ b.record.nextProcessAt := by
    rw [← not_lt]
    intro hlt
    exact absurd (h.symm.trans hlt) (by simp)
  rcases lt_or_eq_of_le hle with hlt | heq
  · exact .inl hlt
  · exact .inr ⟨heq, hid⟩

/-- What is found comes before all other rows. -/
theorem dueBefore_of_oldest? {rs : List Row} (hrs : rs.Pairwise fun a b => a.id < b.id)
    (h : oldest? rs = some r) : ∀ q ∈ rs, q ≠ r → r.DueBefore q := by
  induction rs generalizing r with
  | nil => cases h
  | cons first rs ih =>
    obtain ⟨hfirst, hrs⟩ := List.pairwise_cons.1 hrs
    intro q hq hne
    simp only [oldest?] at h
    split at h
    next hnone =>
      cases h
      rw [oldest?_eq_none_iff.1 hnone, List.mem_singleton] at hq
      exact absurd hq hne
    next best hbest =>
      split at h
      next hsooner =>
        cases h
        rcases List.mem_cons.1 hq with rfl | hq
        · exact .inl hsooner
        · exact ih hrs hbest q hq hne
      next hsooner =>
        cases h
        rcases List.mem_cons.1 hq with rfl | hq
        · exact absurd rfl hne
        -- the first row comes before the best of the others, and so before all of them
        · have hbefore : first.DueBefore best :=
            dueBefore_of_not_sooner (hfirst best (mem_of_oldest? hbest))
              (Bool.eq_false_iff.2 hsooner)
          by_cases heq : q = best
          · exact heq ▸ hbefore
          · exact hbefore.trans (ih hrs hbest q hq heq)

theorem candidate?_eq_none_iff : s.candidate? now l = none ↔ ∀ r, ¬ s.IsDue now l r := by
  rw [candidate?, oldest?_eq_none_iff, List.eq_nil_iff_forall_not_mem]
  exact forall_congr' fun r => not_congr isDue_iff.symm

theorem isDue_of_candidate? (h : s.candidate? now l = some r) : s.IsDue now l r :=
  isDue_iff.2 (mem_of_oldest? h)

/-- The row to be picked comes before all others that may be picked. -/
theorem dueBefore_of_candidate? (h : s.candidate? now l = some r) {q : Row}
    (hq : s.IsDue now l q) (hne : q ≠ r) : r.DueBefore q :=
  dueBefore_of_oldest? (s.ascending.filter _) h q (isDue_iff.1 hq) hne

/-! ### The claim -/

theorem claimedAs_claim (now : Instant) (failure : FailureSettings) (record : TaskRecord) :
    record.ClaimedAs now failure (claim now failure record) :=
  ⟨rfl, rfl, rfl, rfl, rfl, rfl, rfl, rfl⟩

/-- A change that keeps the identifier of a task changes its row and no other. -/
theorem rewritten_update (hr : r ∈ s.rows) {f : TaskRecord → TaskRecord}
    (hf : (f r.record).id = r.id) : s.Rewritten r (f r.record) (s.update r.id f) := by
  refine ⟨List.map_congr_left fun q hq => ?_, rfl, rfl⟩
  by_cases h : q = r
  · subst h
    rw [if_pos rfl, if_pos rfl, changed]
    congr 1
    rw [show q.record.id = (f q.record).id from hf.symm]
  · rw [if_neg h, if_neg fun hid => h (eq_of_id_eq hq hr hid)]

/-- The task of a rewritten row is found under its identifier. -/
theorem Rewritten.get? {s' : Store} {record : TaskRecord} (h : s.Rewritten r record s')
    (hr : r ∈ s.rows) (hat : r.isAt l = true) : s'.get? l record.id = some record := by
  have hrow : s'.row? l record.id = some { r with record } := by
    refine row?_eq_some_iff.2 ⟨?_, rfl, hat⟩
    rw [h.rows]
    exact List.mem_map.2 ⟨r, hr, if_pos rfl⟩
  rw [Store.get?, hrow, Option.map_some]

/-- **A pick claims the row that has been due for longest.** A pick in an open transaction always
succeeds. It gives no task exactly when no row of the queue is due, and then the store stays as it
is. Otherwise there is a due row that comes before all others, by the time at which it became
visible and then by its identifier: the pick gives its task, claimed, and the store holds just this
task in place of the one before, with all other rows and the last identifier unchanged. -/
theorem pick_claims_first_due (s : Store) (now : Instant) (l : Location)
    (failure : FailureSettings) :
    ∃ answer s', Transaction.opened.pick now l failure s = (.ok answer, s') ∧
      (answer = none ↔ ∀ r, ¬ s.IsDue now l r) ∧
      (answer = none → s' = s) ∧
      ∀ record, answer = some record → ∃ r, s.IsDue now l r ∧
        (∀ q, s.IsDue now l q → q ≠ r → r.DueBefore q) ∧
        r.record.ClaimedAs now failure record ∧
        s'.get? l record.id = some record ∧
        s.Rewritten r record s' := by
  refine ⟨(s.pick now l failure).1, (s.pick now l failure).2, rfl, ?_⟩
  cases hr : s.candidate? now l with
  | none =>
    rw [pick_of_none hr]
    refine ⟨iff_of_true rfl (candidate?_eq_none_iff.1 hr), fun _ => rfl, ?_⟩
    intro record heq
    cases heq
  | some r =>
    rw [pick_of_some hr]
    have hdue := isDue_of_candidate? hr
    have hrewritten :
        s.Rewritten r (claim now failure r.record) (s.update r.id (claim now failure)) :=
      rewritten_update hdue.mem rfl
    refine ⟨iff_of_false nofun fun hnone => hnone r hdue, nofun, ?_⟩
    intro record heq
    obtain rfl : claim now failure r.record = record := Option.some.inj heq
    exact ⟨r, hdue, fun q => dueBefore_of_candidate? hr, claimedAs_claim now failure r.record,
      hrewritten.get? hdue.mem (candidate?_mem hr).2.1, hrewritten⟩

end Store

end DurableQueue
