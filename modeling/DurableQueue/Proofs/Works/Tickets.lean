import DurableQueue.Proofs.Works.Notes

/-!
# Tickets

A pick is a ticket to put its row back. It is passed on from who has picked to the job that a task
is handed off to, and it is used up when the row is put back.

* `Ticket` is a pick in the log of a store, `Ticket.since` what has happened there afterwards;
* `Ticket.Good` is what holds of a ticket that is not used up: as long as its row is not picked
  again, the row is not put back either;
* `Tickets` says that all tickets are good, and that nobody has the ticket of somebody else. That is
  what makes them good: who else could put the row back has picked it before, and would put it back
  late, or has picked it since;
* `Tickets.grow`, `Tickets.issue` and `Tickets.pass` keep this when logs grow, a row is picked and a
  ticket is passed on.
-/

namespace DurableQueue.Works

/-- A pick: its store, the number of events in the store up to it, and the record that it has
returned. -/
structure Ticket where
  store : Nat
  stamp : Nat
  record : TaskRecord

namespace Ticket

variable {log log' : Nat → List RowEvent} {Timely Timely' : Nat → Int → Prop} {t t' : Ticket}

/-- What has happened in the store since the pick. -/
def since (t : Ticket) (log : Nat → List RowEvent) : List RowEvent :=
  (log t.store).take ((log t.store).length - t.stamp)

/-- The pick is in the log of the store. -/
def Issued (log : Nat → List RowEvent) (t : Ticket) : Prop :=
  ∃ older, log t.store = t.since log ++ .picked t.record :: older ∧ t.stamp = older.length + 1

/-- A ticket that is not used up. -/
structure Good (log : Nat → List RowEvent) (Timely : Nat → Int → Prop) (t : Ticket) : Prop where
  issued : t.Issued log
  unused : Timely t.store t.record.id → (∀ e ∈ t.since log, e.picks t.record.id = false) →
    ∀ e ∈ t.since log, e.putsBack t.record.id = false

/-- What comes before the pick in the log has happened since. -/
theorem since_of_split {newer older : List RowEvent}
    (h : log t.store = newer ++ .picked t.record :: older) (hstamp : t.stamp = older.length + 1) :
    t.since log = newer := by
  rw [since, h, hstamp, List.length_append, List.length_cons, Nat.add_sub_cancel]
  exact List.take_left

theorem issued_of_split {newer older : List RowEvent}
    (h : log t.store = newer ++ .picked t.record :: older) (hstamp : t.stamp = older.length + 1) :
    t.Issued log :=
  ⟨older, by rwa [since_of_split h hstamp], hstamp⟩

theorem Issued.stamp_le (h : t.Issued log) : t.stamp ≤ (log t.store).length := by
  obtain ⟨older, hlog, hstamp⟩ := h
  rw [hlog, hstamp, List.length_append, List.length_cons]
  omega

theorem Issued.split (h : t.Issued log) {es : List RowEvent}
    (hlog : log' t.store = es ++ log t.store) :
    t.since log' = es ++ t.since log ∧ t.Issued log' := by
  obtain ⟨older, hsplit, hstamp⟩ := h
  have hsplit' : log' t.store = (es ++ t.since log) ++ .picked t.record :: older := by
    rw [hlog, List.append_assoc, ← hsplit]
  exact ⟨since_of_split hsplit' hstamp, issued_of_split hsplit' hstamp⟩

/-- Of two picks in one store the later one has happened since the earlier one. -/
theorem Issued.picked_mem_since (h : t.Issued log) (h' : t'.Issued log)
    (hstore : t'.store = t.store) (hlt : t.stamp < t'.stamp) :
    .picked t'.record ∈ t.since log := by
  obtain ⟨older, hsplit, hstamp⟩ := h
  obtain ⟨older', hsplit', hstamp'⟩ := h'
  rw [hstore, hsplit] at hsplit'
  rcases List.append_eq_append_iff.1 hsplit' with ⟨es, -, hrest⟩ | ⟨es, hsince, hrest⟩
  · have hlength := congrArg List.length hrest
    rw [List.length_append, List.length_cons, List.length_cons] at hlength
    omega
  · cases es with
    | nil =>
      have hlength := congrArg List.length hrest
      rw [List.nil_append, List.length_cons, List.length_cons] at hlength
      omega
    | cons e es =>
      obtain ⟨rfl, -⟩ := List.cons.inj hrest
      rw [hsince]
      exact List.mem_append_right _ List.mem_cons_self

/-- Of two picks of one row, one was followed by the other. -/
theorem Issued.followed (h : t.Issued log) (h' : t'.Issued log) (hstore : t'.store = t.store)
    (hid : t'.record.id = t.record.id) (hne : t'.stamp ≠ t.stamp) :
    (∃ e ∈ t.since log, e.picks t.record.id = true) ∨
      ∃ e ∈ t'.since log, e.picks t.record.id = true := by
  rcases Nat.lt_or_gt_of_ne hne with hlt | hlt
  · exact .inr ⟨_, h'.picked_mem_since h hstore.symm hlt, decide_eq_true rfl⟩
  · exact .inl ⟨_, h.picked_mem_since h' hstore hlt, decide_eq_true hid⟩

/-- A ticket stays good as long as its row is not put back by others who have not picked it
since. -/
theorem Good.grow (h : t.Good log Timely) {es : List RowEvent}
    (hlog : log' t.store = es ++ log t.store) (htimely : ∀ n id, Timely' n id → Timely n id)
    (hes : Timely' t.store t.record.id →
      (∀ e ∈ es ++ t.since log, e.picks t.record.id = false) →
        ∀ e ∈ es, e.putsBack t.record.id = false) : t.Good log' Timely' := by
  obtain ⟨hsince, hissued⟩ := h.issued.split hlog
  refine ⟨hissued, fun htime hpicks e he => ?_⟩
  rw [hsince] at hpicks he
  rcases List.mem_append.1 he with he | he
  · exact hes htime hpicks e he
  · refine h.unused (htimely _ _ htime) (fun e he => ?_) e he
    exact hpicks e (List.mem_append_right _ he)

end Ticket

/-- Who may have a ticket: somebody, or a job that waits. -/
inductive Holder
  | actor (actor : Actor)
  | job (number : Nat)
  deriving DecidableEq

/-- All tickets are good, and nobody has the ticket of somebody else. -/
structure Tickets (log : Nat → List RowEvent) (Timely : Nat → Int → Prop)
    (tickets : Holder → Option Ticket) : Prop where
  good : ∀ x t, tickets x = some t → t.Good log Timely
  distinct : ∀ x y t t', tickets x = some t → tickets y = some t' → t.store = t'.store →
    t.stamp = t'.stamp → x = y

namespace Tickets

variable {log log' : Nat → List RowEvent} {Timely Timely' : Nat → Int → Prop}
  {tickets tickets' : Holder → Option Ticket}

theorem none (h : ∀ x, tickets x = .none) : Tickets log Timely tickets :=
  ⟨fun x _ heq => (by cases (h x).symm.trans heq),
    fun x _ _ _ heq => (by cases (h x).symm.trans heq)⟩

/-- Logs grow, and no tickets are added. -/
theorem grow (h : Tickets log Timely tickets) {es : Nat → List RowEvent}
    (hlog : ∀ n, log' n = es n ++ log n) (htimely : ∀ n id, Timely' n id → Timely n id)
    (hsub : ∀ x t, tickets' x = some t → tickets x = some t)
    (hes : ∀ x t, tickets' x = some t → Timely' t.store t.record.id →
      (∀ e ∈ es t.store ++ t.since log, e.picks t.record.id = false) →
        ∀ e ∈ es t.store, e.putsBack t.record.id = false) : Tickets log' Timely' tickets' where
  good x t hx := (h.good x t (hsub x t hx)).grow (hlog t.store) htimely (hes x t hx)
  distinct x y t t' hx hy := h.distinct x y t t' (hsub x t hx) (hsub y t' hy)

/-- Tickets are passed on, by a function to their former holders. -/
theorem pass (h : Tickets log Timely tickets) (former : Holder → Holder)
    (hformer : ∀ x t, tickets' x = some t → tickets (former x) = some t)
    (hinj : ∀ x y t t', tickets' x = some t → tickets' y = some t' → former x = former y → x = y) :
    Tickets log Timely tickets' where
  good x t hx := h.good _ t (hformer x t hx)
  distinct x y t t' hx hy hstore hstamp :=
    hinj x y t t' hx hy (h.distinct _ _ t t' (hformer x t hx) (hformer y t' hy) hstore hstamp)

/-- A pick issues a ticket. -/
theorem issue (h : Tickets log Timely tickets) {x : Holder} {t : Ticket}
    (hold : ∀ y, y ≠ x → tickets' y = tickets y) (hx : tickets' x = some t)
    (hlog : log' t.store = .picked t.record :: log t.store)
    (hothers : ∀ n, n ≠ t.store → log' n = log n) (hstamp : t.stamp = (log' t.store).length)
    (htimely : ∀ n id, Timely' n id → Timely n id) : Tickets log' Timely' tickets' := by
  have hsplit : log' t.store = [] ++ .picked t.record :: log t.store := hlog
  have hlength : t.stamp = (log t.store).length + 1 := by rw [hstamp, hlog, List.length_cons]
  have hnew : t.Good log' Timely' := by
    refine ⟨Ticket.issued_of_split hsplit hlength, fun _ _ e he => ?_⟩
    rw [Ticket.since_of_split hsplit hlength] at he
    cases he
  -- all other tickets were issued before
  have hbefore (y : Holder) (t' : Ticket) (hy : tickets' y = some t') (hne : y ≠ x) :
      tickets y = some t' ∧ t'.Good log' Timely' := by
    rw [hold y hne] at hy
    refine ⟨hy, ?_⟩
    by_cases hstore : t'.store = t.store
    · have hlog' : log' t'.store = [.picked t.record] ++ log t'.store := by rw [hstore, hlog]; rfl
      refine (h.good y t' hy).grow hlog' htimely fun _ _ e he => ?_
      rw [List.mem_singleton.1 he]
      rfl
    · have hlog' : log' t'.store = [] ++ log t'.store := hothers _ hstore
      exact (h.good y t' hy).grow hlog' htimely fun _ _ _ he => by cases he
  have hstamp_ne (y : Holder) (t' : Ticket) (hy : tickets' y = some t') (hne : y ≠ x)
      (hstore : t'.store = t.store) : t'.stamp ≠ t.stamp := by
    have hle := ((h.good y t' (hbefore y t' hy hne).1).issued).stamp_le
    rw [hstore] at hle
    omega
  refine ⟨fun y t' hy => ?_, fun y z ty tz hy hz hstore hstamp' => ?_⟩
  · by_cases hyx : y = x
    · subst hyx
      cases hx.symm.trans hy
      exact hnew
    · exact (hbefore y t' hy hyx).2
  · by_cases hyx : y = x <;> by_cases hzx : z = x
    · rw [hyx, hzx]
    · subst hyx
      cases hx.symm.trans hy
      exact absurd hstamp'.symm (hstamp_ne z tz hz hzx hstore.symm)
    · subst hzx
      cases hx.symm.trans hz
      exact absurd hstamp' (hstamp_ne y ty hy hyx hstore)
    · exact h.distinct y z ty tz (hbefore y ty hy hyx).1 (hbefore z tz hz hzx).1 hstore hstamp'

end Tickets

end DurableQueue.Works
