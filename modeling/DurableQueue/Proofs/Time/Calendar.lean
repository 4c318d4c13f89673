import DurableQueue.Time.Calendar

/-!
# Dates of the calendar

The date of a day is a date of the calendar, and counting the days to it gives the day.

* `year_of_dayOfEra` says where the years of an era of 400 years begin and end, and which of them
  have a leap day; the era begins in March, so a leap day is the last day of its year;
* `month_of_dayOfYear` says the same of the months of such a year;
* `daysFromCivil_civilFromDays` and `isValid_civilFromDays` are the main results.
-/

namespace DurableQueue.Calendar

/-- A date of the calendar has two digits at most for its month and for its day. -/
theorem Date.le_of_isValid {d : Date} (h : d.isValid = true) : d.month ≤ 12 ∧ d.day ≤ 31 := by
  have hday : 1 ≤ d.day ∧ d.day ≤ monthLength d.year d.month := by simpa [isValid] using h
  unfold monthLength at hday
  split at hday
  all_goals first
    | omega
    | split at hday <;> omega

/-- The day of an era lies within its year, the year within the era, and only a leap year has a
day 365. -/
theorem year_of_dayOfEra {day year : Int} (h0 : 0 ≤ day) (h1 : day ≤ 146096)
    (hyear : year = (day - day / 1460 + day / 36524 - day / 146096) / 365) :
    let dayOfYear := day - (365 * year + year / 4 - year / 100)
    0 ≤ year ∧ year ≤ 399 ∧ 0 ≤ dayOfYear ∧ dayOfYear ≤ 365 ∧
    (dayOfYear = 365 → (year + 1) % 4 = 0 ∧ ((year + 1) % 100 ≠ 0 ∨ (year + 1) % 400 = 0)) := by
  intro dayOfYear
  have hday : dayOfYear = day - (365 * year + year / 4 - year / 100) := rfl
  clear_value dayOfYear
  -- the last day of the era is the leap day that its last century has more than the others
  obtain rfl | hlast : day = 146096 ∨ day < 146096 := by omega
  · obtain rfl : year = 399 := by omega
    omega
  have hera : day / 146096 = 0 := by omega
  have hcenturies : day / 36524 = 0 ∨ day / 36524 = 1 ∨ day / 36524 = 2 ∨ day / 36524 = 3 := by
    omega
  have hcentury : year / 100 = day / 36524 := by
    obtain hc | hc | hc | hc := hcenturies
    all_goals
      rw [hc] at hyear ⊢
      omega
  rw [hcentury] at hday
  obtain hc | hc | hc | hc := hcenturies
  all_goals
    rw [hc, hera] at hyear
    rw [hc] at hday
    -- cycles of 1460 days run at most one leap day ahead of the years
    have hle : year / 4 ≤ day / 1460 := by omega
    have hge : day / 1460 ≤ year / 4 + 1 := by omega
    refine ⟨by omega, by omega, by omega, by omega, fun h => ?_⟩
    have hfourth : year = 4 * (year / 4) + 3 := by omega
    omega

/-- The months of a year that begins in March. -/
theorem month_cases {m : Int} (h0 : 0 ≤ m) (h11 : m ≤ 11) :
    m = 0 ∨ m = 1 ∨ m = 2 ∨ m = 3 ∨ m = 4 ∨ m = 5 ∨ m = 6 ∨ m = 7 ∨ m = 8 ∨ m = 9 ∨ m = 10 ∨
      m = 11 := by
  omega

/-- The days of the months of a year that begins in March. -/
def lengthFromMarch (leap : Bool) : Int → Int
  | 1 | 3 | 6 | 8 => 30
  | 11 => if leap then 29 else 28
  | _ => 31

/-- The day of a year lies within its month, and the month within the year. -/
theorem month_of_dayOfYear {day month : Int} {leap : Bool} (h0 : 0 ≤ day) (h1 : day ≤ 365)
    (hleap : day = 365 → leap = true) (hmonth : month = (5 * day + 2) / 153) :
    let dayOfMonth := day - (153 * month + 2) / 5 + 1
    0 ≤ month ∧ month ≤ 11 ∧ 1 ≤ dayOfMonth ∧ dayOfMonth ≤ lengthFromMarch leap month := by
  intro dayOfMonth
  have hday : dayOfMonth = day - (153 * month + 2) / 5 + 1 := rfl
  clear_value dayOfMonth
  obtain rfl | rfl | rfl | rfl | rfl | rfl | rfl | rfl | rfl | rfl | rfl | rfl :=
    month_cases (m := month) (by omega) (by omega)
  case inr.inr.inr.inr.inr.inr.inr.inr.inr.inr.inr =>
    cases leap with
    | false =>
      have : day ≠ 365 := fun h => Bool.noConfusion (hleap h)
      simp only [lengthFromMarch, Bool.false_eq_true, if_false]
      omega
    | true =>
      simp only [lengthFromMarch, if_true]
      omega
  all_goals
    simp only [lengthFromMarch]
    omega

/-- The month, counted from January, of a month counted from March. -/
def monthOf (fromMarch : Int) : Int := if fromMarch < 10 then fromMarch + 3 else fromMarch - 9

/-- The year, begun in January, of a month of a year begun in March. -/
def yearOf (year fromMarch : Int) : Int := if monthOf fromMarch ≤ 2 then year + 1 else year

/-- The months are as long when they are counted from January. -/
theorem monthLength_monthOf {m : Int} (h0 : 0 ≤ m) (h11 : m ≤ 11) (year : Int) :
    (monthLength (yearOf year m) (monthOf m).toNat : Int)
      = lengthFromMarch (isLeapYear (year + 1)) m := by
  obtain rfl | rfl | rfl | rfl | rfl | rfl | rfl | rfl | rfl | rfl | rfl | rfl :=
    month_cases h0 h11
  case inr.inr.inr.inr.inr.inr.inr.inr.inr.inr.inr =>
    rw [show monthLength (yearOf year 11) (monthOf 11).toNat
        = if isLeapYear (year + 1) then 29 else 28 from rfl, lengthFromMarch]
    cases isLeapYear (year + 1) <;> rfl
  all_goals rfl

/-- The parts of a date: the era, its year from March, the month of that year and the day. -/
structure Parts where
  era : Int
  year : Int
  month : Int
  day : Int
  year_nonneg : 0 ≤ year
  year_le : year ≤ 399
  month_nonneg : 0 ≤ month
  month_le : month ≤ 11
  day_pos : 1 ≤ day
  day_le : day ≤ lengthFromMarch (isLeapYear (era * 400 + year + 1)) month

namespace Parts

/-- The date of the parts. -/
def date (p : Parts) : Date :=
  ⟨yearOf (p.year + p.era * 400) p.month, (monthOf p.month).toNat, p.day.toNat⟩

/-- The days from the start of 1970 to the date of the parts. -/
def days (p : Parts) : Int :=
  p.era * 146097 + (p.year * 365 + p.year / 4 - p.year / 100 +
    ((153 * p.month + 2) / 5 + p.day - 1)) - 719468

theorem toNat_monthOf (p : Parts) : ((monthOf p.month).toNat : Int) = monthOf p.month := by
  have := p.month_nonneg
  unfold monthOf
  split <;> omega

theorem toNat_day (p : Parts) : (p.day.toNat : Int) = p.day :=
  Int.toNat_of_nonneg (Int.le_trans Int.one_nonneg p.day_pos)

theorem daysFromCivil_date (p : Parts) : daysFromCivil p.date = p.days := by
  have h0 := p.month_nonneg
  have h11 := p.month_le
  have hmonth := p.toNat_monthOf
  have hyear : (if p.date.month ≤ 2 then p.date.year - 1 else p.date.year)
      = p.year + p.era * 400 := by
    have hiff : p.date.month ≤ 2 ↔ monthOf p.month ≤ 2 := by
      rw [← hmonth]
      exact Int.ofNat_le.symm
    by_cases h : p.date.month ≤ 2
    · rw [if_pos h, date, yearOf, if_pos (hiff.1 h), Int.add_sub_cancel]
    · rw [if_neg h, date, yearOf, if_neg (mt hiff.2 h)]
  have hmarch : (if p.date.month ≤ 2 then (p.date.month : Int) + 9 else p.date.month - 3)
      = p.month := by
    simp only [date, hmonth]
    unfold monthOf at hmonth ⊢
    split <;> split <;> omega
  have hcount : ∀ y m : Int, y = p.year + p.era * 400 → m = p.month →
      y / 400 * 146097 + (y % 400 * 365 + y % 400 / 4 - y % 400 / 100
        + ((153 * m + 2) / 5 + p.day.toNat - 1)) - 719468 = p.days := by
    rintro y m rfl rfl
    have := p.year_nonneg
    have := p.year_le
    rw [toNat_day, days]
    omega
  exact hcount _ _ hyear hmarch

theorem isValid_date (p : Parts) : p.date.isValid = true := by
  have hlength := monthLength_monthOf p.month_nonneg p.month_le (p.year + p.era * 400)
  rw [show p.year + p.era * 400 + 1 = p.era * 400 + p.year + 1 by omega] at hlength
  have hday := p.toNat_day
  have hpos := p.day_pos
  have hle := p.day_le
  suffices 1 ≤ p.date.day ∧ p.date.day ≤ monthLength p.date.year p.date.month by
    simpa [Date.isValid] using this
  simp only [date]
  omega

end Parts

theorem isLeapYear_add_era (era year : Int) :
    isLeapYear (era * 400 + year) = true ↔ year % 4 = 0 ∧ (year % 100 ≠ 0 ∨ year % 400 = 0) := by
  simp only [isLeapYear, Bool.and_eq_true, Bool.or_eq_true, beq_iff_eq, bne_iff_ne, ne_eq]
  omega

/-- Every day has its parts. -/
theorem exists_parts (n : Int) : ∃ p : Parts, civilFromDays n = p.date ∧ p.days = n := by
  have h0 : 0 ≤ (n + 719468) % 146097 := by omega
  have h1 : (n + 719468) % 146097 ≤ 146096 := by omega
  obtain ⟨hy0, hy1, hd0, hd1, hleap⟩ := year_of_dayOfEra h0 h1 rfl
  obtain ⟨hm0, hm1, hday0, hday1⟩ := month_of_dayOfYear hd0 hd1
    (fun h => (isLeapYear_add_era ((n + 719468) / 146097) _).2 (hleap h)) rfl
  rw [← Int.add_assoc] at hday1
  refine ⟨⟨(n + 719468) / 146097, _, _, _, hy0, hy1, hm0, hm1, hday0, hday1⟩, rfl, ?_⟩
  unfold Parts.days
  dsimp only
  omega

/-- Counting the days to the date of a day gives the day. -/
theorem daysFromCivil_civilFromDays (n : Int) : daysFromCivil (civilFromDays n) = n := by
  obtain ⟨p, hp, hn⟩ := exists_parts n
  rw [hp, p.daysFromCivil_date, hn]

/-- The date of a day is a date of the calendar. -/
theorem isValid_civilFromDays (n : Int) : (civilFromDays n).isValid = true := by
  obtain ⟨p, hp, -⟩ := exists_parts n
  rw [hp, p.isValid_date]

end DurableQueue.Calendar
