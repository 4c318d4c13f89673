import DurableQueue.Proofs.Time.Order

/-!
# Sums of instants and delays

Every instant has a timeline, which counts nanoseconds and has no leap second but the one that the
instant itself may be in. The sum of the instant and a delay is the instant that is so many
nanoseconds further on the timeline.

* `OnTimeline` says which instants are on a timeline, `position` where they are, and
  `position_le_position_iff` that they are on it in their order;
* `add?_eq_some_iff`: an instant is moved to the sum, and to nothing if there is none. Nothing else
  is known of `add?` from there on;
* `exists_isSum_iff`: there is a sum exactly if it is not beyond the greatest instant;
* `position_shift`: the two checks of `shift`, of the length of the delay and of the range of the
  sum, come to one. The position of the sum is stopped at that of the greatest instant;
* `le_shift` and `shift_le_shift`: an instant up to the greatest one is never moved into the past,
  and a longer delay never moves it less far. An instant within a leap second after the greatest one
  would be moved into the past.
-/

namespace DurableQueue

namespace Instant

variable {t u v : Instant} {d e : Delay}

/-! ### Timelines -/

/-- An instant is on the timeline of `t` unless it is in another leap second than `t`. -/
def OnTimeline (t u : Instant) : Prop :=
  u.inLeapSecond = true → t.inLeapSecond = true ∧ u.second = t.second

/-- The nanoseconds from the start of 1970 to an instant on the timeline of `t`. If `t` is in a leap
second, whatever comes after that second comes a second later. -/
def position (t u : Instant) : Int :=
  if t.inLeapSecond = true ∧ t.second < u.second then u.nanos + nanosPerSecond else u.nanos

theorem onTimeline_iff : t.OnTimeline u ↔
    u.nano < nanosPerSecond ∨ nanosPerSecond ≤ t.nano ∧ u.second = t.second := by
  rw [OnTimeline, inLeapSecond_iff, inLeapSecond_iff]
  omega

theorem onTimeline_self (t : Instant) : t.OnTimeline t := fun h => ⟨h, rfl⟩

theorem onTimeline_greatest (t : Instant) : t.OnTimeline greatest := nofun

@[simp] theorem position_self (t : Instant) : t.position t = t.nanos :=
  if_neg fun h => Int.lt_irrefl _ h.2

theorem nano_lt (t : Instant) : t.nano < 2 * nanosPerSecond := by
  have h := t.valid.2.2
  omega

/-- Instants of a timeline are on it in their order. -/
theorem position_le_position_iff (hu : t.OnTimeline u) (hv : t.OnTimeline v) :
    t.position u ≤ t.position v ↔ u ≤ v := by
  have hu' := u.nano_lt
  have hv' := v.nano_lt
  rw [onTimeline_iff] at hu hv
  rw [le_iff]
  simp only [position, nanos, inLeapSecond_iff, nanosPerSecond] at *
  split <;> split <;> omega

/-- On the timeline of an instant up to the greatest one nothing is after the greatest one. -/
theorem OnTimeline.le_greatest (h : t.OnTimeline u) (ht : t ≤ greatest) : u ≤ greatest := by
  have hu := u.valid.2.1
  rw [onTimeline_iff] at h
  rw [le_iff] at ht ⊢
  simp only [greatest, nanosPerSecond] at *
  omega

/-! ### Sums -/

/-- On the timeline of `t`, the instant `u` is the delay `d` further than `t` itself. -/
structure IsSum (t : Instant) (d : Delay) (u : Instant) : Prop where
  onTimeline : t.OnTimeline u
  position : t.position u = t.nanos + d.nanos

theorem isSum_iff : t.IsSum d u ↔ t.OnTimeline u ∧ t.position u = t.nanos + d.nanos :=
  ⟨fun h => ⟨h.onTimeline, h.position⟩, fun h => ⟨h.1, h.2⟩⟩

/-- Outside of leap seconds the nanoseconds are added up. -/
theorem isSum_iff_of_steady (h : t.inLeapSecond = false) :
    t.IsSum d u ↔ u.inLeapSecond = false ∧ u.nanos = t.nanos + d.nanos := by
  simp [isSum_iff, OnTimeline, position, h]

/-- Within a leap second the sum stays in it for as long as it lasts. From then on it is the sum of
the instant a second before. -/
theorem isSum_iff_of_leap (h : t.inLeapSecond = true) :
    t.IsSum d u ↔
      if t.nano + d.nanos < 2 * nanosPerSecond then
        u.second = t.second ∧ u.nano = t.nano + d.nanos
      else u.inLeapSecond = false ∧ u.nanos = t.nanos - nanosPerSecond + d.nanos := by
  have hu := u.nano_lt
  rw [inLeapSecond_iff] at h
  rw [isSum_iff, onTimeline_iff, ← Bool.not_eq_true]
  simp only [position, nanos, inLeapSecond_iff, nanosPerSecond] at *
  split <;> split <;> omega

/-- A count of nanoseconds is that of an instant outside of leap seconds. -/
theorem ofNanos?_eq_some_iff {n : Int} :
    ofNanos? n = some u ↔ u.inLeapSecond = false ∧ u.nanos = n := by
  rw [ofNanos?, of?_eq_some, ← Bool.not_eq_true, inLeapSecond_iff]
  simp only [nanos, nanosPerSecond]
  omega

/-- An instant is moved to the sum, and to nothing if there is none. -/
theorem add?_eq_some_iff : t.add? d = some u ↔ t.IsSum d u := by
  unfold add?
  cases h : t.inLeapSecond with
  | false => rw [if_neg Bool.false_ne_true, ofNanos?_eq_some_iff, isSum_iff_of_steady h]
  | true =>
    rw [if_pos rfl, isSum_iff_of_leap h]
    split
    · exact of?_eq_some
    · exact ofNanos?_eq_some_iff

/-! ### The range of sums -/

/-- Each count of nanoseconds in range is that of an instant outside of leap seconds. -/
theorem exists_nanos_eq {n : Int} (h0 : firstSecond * nanosPerSecond ≤ n)
    (h1 : n ≤ greatest.nanos) : ∃ u : Instant, u.inLeapSecond = false ∧ u.nanos = n := by
  simp only [nanos, greatest, nanosPerSecond] at h0 h1
  have hvalid : Valid (n / nanosPerSecond) (n % nanosPerSecond).toNat := by
    simp only [Valid, nanosPerSecond]
    omega
  exact ⟨⟨_, _, hvalid⟩, ofNanos?_eq_some_iff.1 (dif_pos hvalid)⟩

/-- Outside of leap seconds the range of sums is that of instants. -/
theorem exists_isSum_of_steady (h : t.inLeapSecond = false)
    (hn : t.nanos + d.nanos ≤ t.position greatest) : ∃ u, t.IsSum d u := by
  have hfirst := t.valid.1
  simp only [isSum_iff_of_steady h]
  rw [position, if_neg (by simp [h])] at hn
  refine exists_nanos_eq ?_ hn
  simp only [nanos, nanosPerSecond]
  omega

/-- Within a leap second a sum that stays in it is always in range. -/
theorem exists_isSum_of_leap (h : t.inLeapSecond = true) (ht : t ≤ greatest)
    (hn : t.nanos + d.nanos ≤ t.position greatest) : ∃ u, t.IsSum d u := by
  have hleap := inLeapSecond_iff.1 h
  have hfirst := t.valid.1
  have hlast : t.second < lastSecond := by
    rw [le_iff] at ht
    simp only [greatest, nanosPerSecond] at ht hleap
    omega
  simp only [isSum_iff_of_leap h]
  rw [position, if_pos ⟨h, hlast⟩] at hn
  split
  next hin =>
    have hvalid : Valid t.second (t.nano + d.nanos) := by
      obtain ⟨hfirst, hlast, hnano⟩ := t.valid
      exact ⟨hfirst, hlast, by omega⟩
    exact ⟨⟨_, _, hvalid⟩, rfl, rfl⟩
  next hout =>
    refine exists_nanos_eq ?_ (by omega)
    simp only [nanos, nanosPerSecond] at hout ⊢
    omega

/-- There is a sum exactly if it is not beyond the greatest instant. -/
theorem exists_isSum_iff (ht : t ≤ greatest) :
    (∃ u, t.IsSum d u) ↔ t.nanos + d.nanos ≤ t.position greatest := by
  constructor
  · rintro ⟨u, hu⟩
    rw [← hu.position, position_le_position_iff hu.onTimeline t.onTimeline_greatest]
    exact hu.onTimeline.le_greatest ht
  · intro hn
    cases h : t.inLeapSecond with
    | false => exact exists_isSum_of_steady h hn
    | true => exact exists_isSum_of_leap h ht hn

/-- Where there is a sum, the delay is never too long. The calendar ends long before. -/
theorem IsSum.nanos_le (h : t.IsSum d u) : d.nanos ≤ longestShift := by
  have hposition := h.position
  have ht := t.valid.1
  have hu := u.valid.2.1
  have hnano := u.nano_lt
  simp only [Instant.position, nanos, nanosPerSecond, firstSecond, lastSecond] at *
  simp only [longestShift, nanosPerMilli]
  split at hposition <;> omega

/-! ### Shifts -/

theorem shift_of_isSum (h : t.IsSum d u) : t.shift d = u := by
  rw [shift, if_pos h.nanos_le, add?_eq_some_iff.2 h, Option.getD_some]

theorem shift_of_not_exists (h : ¬ ∃ u, t.IsSum d u) : t.shift d = greatest := by
  have hnone : t.add? d = none :=
    Option.eq_none_iff_forall_ne_some.2 fun u hu => h ⟨u, add?_eq_some_iff.1 hu⟩
  rw [shift, hnone, Option.getD_none, ite_self]

theorem onTimeline_shift (t : Instant) (d : Delay) : t.OnTimeline (t.shift d) := by
  by_cases h : ∃ u, t.IsSum d u
  · obtain ⟨u, hu⟩ := h
    rw [shift_of_isSum hu]
    exact hu.onTimeline
  · rw [shift_of_not_exists h]
    exact t.onTimeline_greatest

/-- A shift moves to the position of the sum, or to the greatest instant if that comes before. -/
theorem position_shift (ht : t ≤ greatest) (d : Delay) :
    t.position (t.shift d) = min (t.nanos + d.nanos) (t.position greatest) := by
  have hrange := exists_isSum_iff (d := d) ht
  by_cases h : ∃ u, t.IsSum d u
  · rw [Int.min_eq_left (hrange.1 h)]
    obtain ⟨u, hu⟩ := h
    rw [shift_of_isSum hu, hu.position]
  · rw [Int.min_eq_right (Int.le_of_not_le (mt hrange.2 h)), shift_of_not_exists h]

/-- An instant up to the greatest one is not moved into the past. -/
theorem le_shift (h : t ≤ greatest) (d : Delay) : t ≤ t.shift d := by
  have hgreatest := (position_le_position_iff t.onTimeline_self t.onTimeline_greatest).2 h
  rw [← position_le_position_iff t.onTimeline_self (t.onTimeline_shift d), position_shift h]
  rw [position_self] at *
  omega

/-- A longer delay does not move an instant less far. -/
theorem shift_le_shift (ht : t ≤ greatest) (h : d ≤ e) : t.shift d ≤ t.shift e := by
  rw [← position_le_position_iff (t.onTimeline_shift d) (t.onTimeline_shift e), position_shift ht,
    position_shift ht]
  rw [Delay.le_def] at h
  omega

end Instant

/-- What a clock shows is not moved into the past. -/
theorem Reading.le_shift (t : Reading) (d : Delay) : t.time ≤ t.time.shift d :=
  Instant.le_shift (Instant.le_greatest t.steady) d

end DurableQueue
