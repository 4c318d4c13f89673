import DurableQueue.Proofs.Store.Exclusive

/-!
# When rows become visible

A row becomes visible a delay after the time of the call that gave it the delay.

* `Row.GivenDelay` lists the calls that give a row a delay: the one that adds its task, one that
  claims it and one that puts it back;
* `Row.GivenDelay.isVisible_iff` says from when on such a row is visible;
* `visibility_never_wraps` is the main statement.
-/

namespace DurableQueue

open Store

/-- A row that a call at a time has given a delay, as the store has it after the call. A new row is
given the delay of its task, a claimed one the failure delay of the attempts before, and one that is
put back the delay that it is put back with. -/
inductive Row.GivenDelay (now : Instant) : Delay → Row → Prop
  | enqueued {l : Location} {t : Transaction} {s : Store} {task : NewTask} {r : Row}
      (answer : ((StoreCall.enqueue task).answerIn now l t s).1 = .ok r.id)
      (mem : r ∈ ((StoreCall.enqueue task).answerIn now l t s).2.2.rows) :
      GivenDelay now task.delay r
  | picked {l : Location} {t : Transaction} {s : Store} {failure : FailureSettings}
      {before record : TaskRecord} {r : Row}
      (answer : ((StoreCall.pick failure).answerIn now l t s).1 = .ok (some record))
      (before_eq : s.get? l record.id = some before)
      (mem : r ∈ ((StoreCall.pick failure).answerIn now l t s).2.2.rows)
      (id_eq : r.id = record.id) :
      GivenDelay now (failure.delayForAttempt before.attempts) r
  | putBack {l : Location} {t : Transaction} {s : Store} {delay : Delay} {r : Row}
      (answer : ((StoreCall.reenqueue r.id delay).answerIn now l t s).1 = .ok true)
      (mem : r ∈ ((StoreCall.reenqueue r.id delay).answerIn now l t s).2.2.rows) :
      GivenDelay now delay r

namespace Row.GivenDelay

variable {now : Instant} {d e : Delay} {r a b : Row}

/-- Whichever call gave a row a delay has put its visibility off by the delay. -/
theorem nextProcessAt (h : r.GivenDelay now d) : r.record.nextProcessAt = now.shift d := by
  cases h with
  | enqueued answer mem =>
    obtain ⟨q, hq, hnext⟩ := StoreCall.exists_row_of_enqueue answer
    obtain ⟨hmem, hid, -⟩ := row?_eq_some_iff.1 hq
    rw [← eq_of_id_eq hmem mem hid, hnext]
  | picked answer before_eq mem id_eq =>
    obtain ⟨q, hq, rfl, hstore⟩ := StoreCall.candidate?_of_pick answer
    -- the task before is that of the row that was to be picked
    obtain rfl := Option.some.inj ((get?_of_candidate? hq).symm.trans before_eq)
    rw [hstore] at mem
    rw [eq_changed_of_mem_update (candidate?_mem hq).1 mem id_eq]
    rfl
  | putBack answer mem =>
    obtain ⟨q, hmem, hid, hstore⟩ := StoreCall.row_of_reenqueue answer
    rw [hstore] at mem
    rw [eq_changed_of_mem_update hmem mem hid.symm]
    rfl

/-- A row that was given a delay is visible from the shifted time on. -/
theorem isVisible_iff (h : r.GivenDelay now d) (time : Instant) :
    r.isVisible time = true ↔ now.shift d ≤ time := by
  rw [← h.nextProcessAt]
  rfl

/-- Of two rows that were given delays at one time, the one with the longer delay is not visible
before the other. -/
theorem isVisible_of_le (hnow : now ≤ .greatest) (ha : a.GivenDelay now d)
    (hb : b.GivenDelay now e) (h : d ≤ e) {time : Instant} (hvisible : b.isVisible time = true) :
    a.isVisible time = true := by
  rw [hb.isVisible_iff] at hvisible
  rw [ha.isVisible_iff]
  exact le_trans (Instant.shift_le_shift hnow h) hvisible

end Row.GivenDelay

/-- **Visibility times never wrap.** Take an instant up to the greatest one and two delays. The
shorter delay does not move the instant into the past, and the longer one does not move it less far.
The instant is moved to the very sum, to the nanosecond, if the delay is at most `2 ^ 63 - 1`
milliseconds and the sum can be represented, and to the greatest instant otherwise. So a row that is
given a delay is visible from there on, and a row that is given a longer delay at the same time is
never visible before it, whichever calls give the delays. -/
theorem visibility_never_wraps {now : Instant} (hnow : now ≤ .greatest) {d e : Delay} (h : d ≤ e) :
    now ≤ now.shift d ∧ now.shift d ≤ now.shift e ∧
    (∀ sum, d.nanos ≤ 9223372036854775807 * nanosPerMilli → now.IsSum d sum →
      now.shift d = sum) ∧
    (¬ (d.nanos ≤ 9223372036854775807 * nanosPerMilli ∧ ∃ sum, now.IsSum d sum) →
      now.shift d = .greatest) ∧
    ∀ a : Row, a.GivenDelay now d →
      (∀ time, a.isVisible time = true ↔ now.shift d ≤ time) ∧
      ∀ b : Row, b.GivenDelay now e →
        ∀ time, b.isVisible time = true → a.isVisible time = true := by
  refine ⟨Instant.le_shift hnow d, Instant.shift_le_shift hnow h, fun sum _ => ?_, fun hnone => ?_,
    fun a ha => ⟨ha.isVisible_iff, fun b hb time => ha.isVisible_of_le hnow hb h⟩⟩
  · exact Instant.shift_of_isSum
  · refine Instant.shift_of_not_exists fun hsum => hnone ⟨?_, hsum⟩
    obtain ⟨sum, hsum⟩ := hsum
    exact hsum.nanos_le

namespace SharedStore

/-- Halfway through the leap second in the middle of 2015. -/
def leapSecond : Instant := ⟨1435708799, 1500000000, by decide⟩

/-- The store with one order, after it was picked in the leap second. -/
def retriedSoon : Store :=
  ((StoreCall.pick ⟨.linear, .ofMillis 750⟩).answerIn leapSecond orders .opened oneOrder.store).2.2

/-- The store with one order, after it was put back in the leap second for as long as possible. -/
def putOffForever : Store :=
  ((StoreCall.reenqueue 1 .greatest).answerIn leapSecond orders .opened oneOrder.store).2.2

/-- The failure delay ends a quarter of a second after the leap second, the longest delay with the
last instant. -/
theorem leap_second_is_left_in_order :
    leapSecond ≤ .greatest ∧ Delay.ofMillis 750 ≤ .greatest ∧
    leapSecond.shift (.ofMillis 750) = ⟨1435708800, 250000000, by decide⟩ ∧
    leapSecond.shift .greatest = .greatest ∧
    ∃ a b, retriedSoon.rows = [a] ∧ putOffForever.rows = [b] ∧
      (∀ time, a.isVisible time = true ↔ ⟨1435708800, 250000000, by decide⟩ ≤ time) ∧
      ∀ time, b.isVisible time = true → a.isVisible time = true := by
  have hnow : leapSecond ≤ .greatest := by decide
  have hle : Delay.ofMillis 750 ≤ .greatest := by decide
  obtain ⟨-, -, hsum, -, hrows⟩ := visibility_never_wraps hnow hle
  obtain ⟨-, -, -, hlongest, -⟩ := visibility_never_wraps hnow (Nat.le_refl Delay.greatest.nanos)
  have hshift : leapSecond.shift (.ofMillis 750) = ⟨1435708800, 250000000, by decide⟩ :=
    hsum _ (by decide) ⟨nofun, by decide⟩
  have ha : Row.GivenDelay leapSecond (.ofMillis 750) (retriedSoon.rows.head (by decide)) :=
    .picked (r := retriedSoon.rows.head (by decide)) rfl rfl (List.head_mem _) rfl
  have hb : Row.GivenDelay leapSecond .greatest (putOffForever.rows.head (by decide)) :=
    .putBack rfl (List.head_mem _)
  obtain ⟨hvisible, hlater⟩ := hrows _ ha
  rw [hshift] at hvisible
  exact ⟨hnow, hle, hshift, hlongest fun h => absurd h.1 (by decide), _, _, rfl, rfl, hvisible,
    hlater _ hb⟩

end SharedStore

end DurableQueue
