import Mathlib.Data.List.TakeDrop
import Mathlib.Data.List.TakeWhile
import DurableQueue.Proofs.Time.Grammar

/-!
# Reading duration literals

The reader of duration literals against their grammar, number by number, unit by unit and as a
whole.

* `TimeUnit.delay?_eq_some_iff` is about what stands in front of the letter of a unit;
* `addTime?_cons` is about one unit behind the letter `T`, `addTime?_eq_some_iff` about all of them;
* `delay?_eq_some_iff` is about a whole trimmed literal;
* `parse_accepts_exactly_the_grammar` is the main statement.
-/

namespace DurableQueue.Literal

open Text (trim splitOnce splitOnce_eq_some_iff)

/-! ### Numbers -/

theorem value?_eq_some_iff {cs : List Char} {n : Nat} :
    Decimal.value? cs = some n ↔ ∃ ds : Digits, ds.chars = cs ∧ ds.value = n := by
  unfold Decimal.value?
  constructor
  · split
    next h =>
      rintro ⟨⟩
      exact ⟨⟨cs, h.1, h.2⟩, rfl, rfl⟩
    · exact nofun
  · rintro ⟨ds, rfl, rfl⟩
    exact if_pos ⟨ds.ne_nil, ds.all_digits⟩

theorem whole?_eq_some_iff {cs : List Char} {n : Nat} : whole? cs = some n ↔
    ∃ ds : Digits, ds.chars = cs ∧ ds.value = n ∧ n ≤ Decimal.max64 := by
  rw [whole?, Option.filter_eq_some_iff, value?_eq_some_iff, decide_eq_true_iff]
  constructor
  · rintro ⟨⟨ds, hcs, hn⟩, hle⟩
    exact ⟨ds, hcs, hn, hle⟩
  · rintro ⟨ds, hcs, hn, hle⟩
    exact ⟨⟨ds, hcs, hn⟩, hle⟩

/-- A delay has so many nanoseconds if its whole seconds are a number of 64 bits. -/
theorem exists_nanos_iff {seconds fraction : Nat} (h : fraction < nanosPerSecond) :
    (∃ d : Delay, d.nanos = seconds * nanosPerSecond + fraction) ↔ seconds ≤ Decimal.max64 := by
  have hlimit : Delay.limit = Decimal.max64 * 1000000000 + 999999999 := rfl
  rw [show nanosPerSecond = 1000000000 from rfl] at h ⊢
  constructor
  · rintro ⟨d, hd⟩
    have := d.le_limit
    omega
  · intro hle
    exact ⟨⟨seconds * 1000000000 + fraction, by omega⟩, rfl⟩

theorem nanos_ofSeconds {seconds : Nat} (h : seconds ≤ Decimal.max64) :
    (Delay.ofSeconds seconds).nanos = seconds * nanosPerSecond :=
  Nat.min_eq_left (Nat.le_trans (Nat.mul_le_mul_right _ h) (by decide))

theorem ofSeconds_eq_iff {seconds : Nat} {d : Delay} (h : seconds ≤ Decimal.max64) :
    Delay.ofSeconds seconds = d ↔ d.nanos = seconds * nanosPerSecond := by
  rw [← nanos_ofSeconds h]
  exact ⟨fun hd => hd ▸ rfl, fun hd => Delay.ext hd.symm⟩

theorem le_max64_of_nanos {seconds fraction : Nat} {d : Delay} (h : fraction < nanosPerSecond)
    (hd : d.nanos = seconds * nanosPerSecond + fraction) : seconds ≤ Decimal.max64 :=
  (exists_nanos_iff h).1 ⟨d, hd⟩

theorem units?_eq_some_iff {size : Nat} {cs : List Char} {d : Delay} (hsize : 0 < size) :
    units? size cs = some d ↔
      ∃ ds : Digits, ds.chars = cs ∧ d.nanos = ds.value * size * nanosPerSecond := by
  simp only [units?, times?, Option.bind_eq_bind, Option.bind_eq_some_iff, whole?_eq_some_iff,
    Option.ite_none_right_eq_some, Option.some.injEq]
  constructor
  · rintro ⟨-, ⟨ds, hcs, rfl, -⟩, -, ⟨hle, rfl⟩, hd⟩
    exact ⟨ds, hcs, (ofSeconds_eq_iff hle).1 hd⟩
  · rintro ⟨ds, hcs, hd⟩
    have hpos : 0 < nanosPerSecond := by decide
    have hle : ds.value * size ≤ Decimal.max64 := le_max64_of_nanos hpos (by rw [hd, Nat.add_zero])
    refine ⟨ds.value, ⟨ds, hcs, rfl, ?_⟩, ds.value * size, ⟨hle, rfl⟩, (ofSeconds_eq_iff hle).2 hd⟩
    exact Nat.le_trans (Nat.le_mul_of_pos_right _ hsize) hle

/-! ### Amounts of a unit -/

theorem fractionNanos?_eq_some_iff {cs : List Char} {n : Nat} {mark : Char}
    (hmark : mark = '.' ∨ mark = ',') : Delay.fractionNanos? cs = some n ↔
      ∃ f : Decimals, f.chars = mark :: cs ∧ f.nanos = n := by
  unfold Delay.fractionNanos?
  constructor
  · split
    next hle =>
      simp only [Option.map_eq_some_iff, value?_eq_some_iff]
      rintro ⟨-, ⟨ds, rfl, rfl⟩, rfl⟩
      exact ⟨⟨mark, ds, hmark, hle⟩, rfl, rfl⟩
    · exact nofun
  · rintro ⟨f, hf, rfl⟩
    cases hf
    rw [if_pos f.length_le, value?_eq_some_iff.2 ⟨f.digits, rfl, rfl⟩]
    rfl

theorem Amount.seconds_of_seconds (a : Amount .seconds) : a.seconds = a.whole.value :=
  Nat.mul_one _

theorem seconds?_eq_some_iff {cs : List Char} {d : Delay} :
    seconds? cs = some d ↔ ∃ a : Amount .seconds, a.chars = cs ∧ d.nanos = a.nanos := by
  constructor
  · intro h
    unfold seconds? at h
    split at h
    · obtain ⟨n, hn, hd⟩ := Option.map_eq_some_iff.1 h
      obtain ⟨ds, hcs, rfl, hle⟩ := whole?_eq_some_iff.1 hn
      refine ⟨.ofWhole .seconds ds, (Amount.chars_ofWhole _ ds).trans hcs, ?_⟩
      rw [Amount.nanos_ofWhole, (ofSeconds_eq_iff hle).1 hd, TimeUnit.size, Nat.mul_one]
    next hsplit =>
      obtain ⟨mark, hmark, rfl, -⟩ := splitOnce_eq_some_iff.1 hsplit
      simp only [Option.bind_eq_bind, Option.bind_eq_some_iff, whole?_eq_some_iff,
        fractionNanos?_eq_some_iff (isMark_eq_true_iff.1 hmark), Delay.ofNanos?_eq_some_iff] at h
      obtain ⟨-, ⟨ds, rfl, rfl, -⟩, -, ⟨f, hf, rfl⟩, hd⟩ := h
      refine ⟨⟨ds, some f, fun _ => rfl⟩, congrArg (ds.chars ++ ·) hf, ?_⟩
      rw [Amount.nanos, Amount.seconds_of_seconds, hd, Amount.fraction, Option.elim_some]
  · rintro ⟨a, rfl, hd⟩
    rw [Amount.nanos, Amount.seconds_of_seconds] at hd
    have hle : a.whole.value ≤ Decimal.max64 := le_max64_of_nanos a.fraction_lt hd
    have hwhole : whole? a.whole.chars = some a.whole.value :=
      whole?_eq_some_iff.2 ⟨a.whole, rfl, rfl, hle⟩
    rw [seconds?, a.splitOnce_chars]
    cases hdecimals : a.decimals with
    | none =>
      rw [Amount.fraction, hdecimals, Option.elim_none, Nat.add_zero] at hd
      have hchars : a.chars = a.whole.chars := by
        rw [Amount.chars, hdecimals, Option.elim_none, List.append_nil]
      refine Option.map_eq_some_iff.2 ⟨a.whole.value, ?_, (ofSeconds_eq_iff hle).2 hd⟩
      rw [hchars, hwhole]
    | some f =>
      rw [Amount.fraction, hdecimals, Option.elim_some] at hd
      have hf := (fractionNanos?_eq_some_iff f.mark_eq).2 ⟨f, rfl, rfl⟩
      exact Option.bind_eq_some_iff.2 ⟨_, hwhole,
        Option.bind_eq_some_iff.2 ⟨_, hf, Delay.ofNanos?_eq_some_iff.2 hd⟩⟩

theorem TimeUnit.delay?_eq_some_iff {u : TimeUnit} {cs : List Char} {d : Delay} :
    u.delay? cs = some d ↔ ∃ a : Amount u, a.chars = cs ∧ d.nanos = a.nanos := by
  -- an amount of a unit without decimals is its whole number
  have hwhole : ∀ u : TimeUnit, u ≠ .seconds → ((∃ a : Amount u, a.chars = cs ∧ d.nanos = a.nanos) ↔
      ∃ ds : Digits, ds.chars = cs ∧ d.nanos = ds.value * u.size * nanosPerSecond) := by
    intro u hu
    constructor
    · rintro ⟨a, hcs, hd⟩
      refine ⟨a.whole, ?_, ?_⟩
      · rwa [Amount.chars, a.decimals_eq_none hu, Option.elim_none, List.append_nil] at hcs
      · rwa [Amount.nanos, a.fraction_eq_zero hu, Nat.add_zero] at hd
    · rintro ⟨ds, hcs, hd⟩
      exact ⟨.ofWhole u ds, (Amount.chars_ofWhole u ds).trans hcs,
        hd.trans (Amount.nanos_ofWhole u ds).symm⟩
  cases u with
  | hours => exact (units?_eq_some_iff (by decide)).trans (hwhole .hours (by decide)).symm
  | minutes => exact (units?_eq_some_iff (by decide)).trans (hwhole .minutes (by decide)).symm
  | seconds => exact seconds?_eq_some_iff

/-! ### Behind the letter `T` -/

section

variable {u : TimeUnit} {us : List TimeUnit} {total d : Delay} {cs number rest : List Char}
  {letter : Char}

theorem addTime?_nil (us : List TimeUnit) (total : Delay) : addTime? us total [] = some total := by
  cases us <;> rfl

/-- A text is read up to its first letter. -/
theorem addTime?_append (h : ∀ c ∈ number, c.isAlpha = false) (hletter : letter.isAlpha = true) :
    addTime? (u :: us) total (number ++ letter :: rest) =
      if letter = u.letter then
        (u.delay? number).bind fun part => (total.add? part).bind fun sum => addTime? us sum rest
      else addTime? us total (number ++ letter :: rest) := by
  have hspan :
      (number ++ letter :: rest).span (fun c => !c.isAlpha) = (number, letter :: rest) := by
    rw [List.span_eq_takeWhile_dropWhile, List.takeWhile_append_of_pos (by simpa using h),
      List.dropWhile_append_of_pos (by simpa using h)]
    simp [hletter]
  have hne : number ++ letter :: rest ≠ [] := by simp
  obtain ⟨c, cs, hcs⟩ := List.exists_cons_of_ne_nil hne
  rw [hcs] at hspan ⊢
  rw [addTime?, hspan]
  · rfl
  · exact nofun

/-- What is read begins with a number and the letter of a unit. -/
theorem exists_letter (h : addTime? us total cs = some d) (hne : cs ≠ []) :
    ∃ v ∈ us, ∃ number rest, cs = number ++ v.letter :: rest ∧ ∀ c ∈ number, c.isAlpha = false := by
  obtain ⟨c, cs, rfl⟩ := List.exists_cons_of_ne_nil hne
  induction us with
  | nil => cases h
  | cons u us ih =>
    rw [addTime?] at h
    · split at h
      · cases h
      next number letter rest hspan =>
        rw [List.span_eq_takeWhile_dropWhile, Prod.mk.injEq] at hspan
        obtain ⟨hnumber, hrest⟩ := hspan
        split at h
        next heq =>
          refine ⟨u, List.mem_cons_self, number, rest, ?_, fun c hc => ?_⟩
          · rw [← heq, ← hrest, ← hnumber, List.takeWhile_append_dropWhile]
          · rw [← hnumber] at hc
            simpa using List.mem_takeWhile_imp hc
        · obtain ⟨v, hv, hvs⟩ := ih h
          exact ⟨v, List.mem_cons_of_mem _ hv, hvs⟩
    · exact nofun

/-- The first of several units is passed over, or an amount of it comes first. -/
theorem addTime?_cons (hu : u ∉ us) : addTime? (u :: us) total cs = some d ↔
    addTime? us total cs = some d ∨ ∃ (a : Amount u) (rest : List Char) (sum : Delay),
      cs = a.chars ++ u.letter :: rest ∧ sum.nanos = total.nanos + a.nanos ∧
      addTime? us sum rest = some d := by
  constructor
  · intro h
    rcases eq_or_ne cs [] with rfl | hne
    · left
      rwa [addTime?_nil] at h ⊢
    obtain ⟨v, -, number, rest, rfl, hnumber⟩ := exists_letter h hne
    rw [addTime?_append hnumber v.isAlpha_letter] at h
    split at h
    next heq =>
      obtain rfl := TimeUnit.letter_injective heq
      obtain ⟨part, hpart, hadd⟩ := Option.bind_eq_some_iff.1 h
      obtain ⟨sum, hsum, hrest⟩ := Option.bind_eq_some_iff.1 hadd
      obtain ⟨a, rfl, ha⟩ := TimeUnit.delay?_eq_some_iff.1 hpart
      have hnanos := Delay.ofNanos?_eq_some_iff.1 hsum
      exact .inr ⟨a, rest, sum, rfl, by rw [hnanos, ha], hrest⟩
    · exact .inl h
  · rintro (h | ⟨a, rest, sum, rfl, hsum, h⟩)
    · rcases eq_or_ne cs [] with rfl | hne
      · rwa [addTime?_nil] at h ⊢
      obtain ⟨v, hv, number, rest, rfl, hnumber⟩ := exists_letter h hne
      have hother : v.letter ≠ u.letter := fun heq => hu (TimeUnit.letter_injective heq ▸ hv)
      rwa [addTime?_append hnumber v.isAlpha_letter, if_neg hother]
    · have hle : a.nanos ≤ Delay.limit :=
        Nat.le_trans (Nat.le_add_left _ _) (hsum ▸ sum.le_limit)
      have hpart : u.delay? a.chars = some ⟨a.nanos, hle⟩ :=
        TimeUnit.delay?_eq_some_iff.2 ⟨a, rfl, rfl⟩
      have hadd : total.add? ⟨a.nanos, hle⟩ = some sum := Delay.ofNanos?_eq_some_iff.2 hsum
      rw [addTime?_append (fun _ => a.not_isAlpha) u.isAlpha_letter, if_pos rfl, hpart,
        Option.bind_some, hadd, Option.bind_some, h]

/-- What is read behind the letter `T` are amounts of the units, in their order. -/
theorem addTime?_eq_some_iff (hus : us.Nodup) : addTime? us total cs = some d ↔
    ∃ t : Amounts, t.chars us = cs ∧ d.nanos = total.nanos + t.nanos us := by
  induction us generalizing total cs with
  | nil =>
    cases cs with
    | nil =>
      rw [addTime?_nil, Option.some.injEq]
      constructor
      · rintro rfl
        exact ⟨fun _ => none, rfl, rfl⟩
      · rintro ⟨t, -, hd⟩
        exact Delay.ext hd.symm
    | cons c cs => exact iff_of_false nofun fun ⟨_, hcs, _⟩ => nomatch hcs
  | cons u us ih =>
    obtain ⟨hu, hus⟩ := List.nodup_cons.1 hus
    rw [addTime?_cons hu]
    constructor
    · rintro (h | ⟨a, rest, sum, rfl, hsum, h⟩)
      · obtain ⟨t, rfl, hd⟩ := (ih hus).1 h
        have hself : Function.update t u none u = none := Function.update_self ..
        refine ⟨Function.update t u none, ?_, ?_⟩
        · rw [Amounts.chars_cons_of_none hself, Amounts.chars_update hu]
        · rw [Amounts.nanos_cons_of_none hself, Amounts.nanos_update hu, hd]
      · obtain ⟨t, rfl, hd⟩ := (ih hus).1 h
        have hself : Function.update t u (some a) u = some a := Function.update_self ..
        refine ⟨Function.update t u (some a), ?_, ?_⟩
        · rw [Amounts.chars_cons_of_some hself, Amounts.chars_update hu]
        · rw [Amounts.nanos_cons_of_some hself, Amounts.nanos_update hu, hd, hsum, Nat.add_assoc]
    · rintro ⟨t, rfl, hd⟩
      cases ht : t u with
      | none =>
        rw [Amounts.chars_cons_of_none ht]
        rw [Amounts.nanos_cons_of_none ht] at hd
        exact .inl ((ih hus).2 ⟨t, rfl, hd⟩)
      | some a =>
        rw [Amounts.chars_cons_of_some ht]
        rw [Amounts.nanos_cons_of_some ht, ← Nat.add_assoc] at hd
        have hle : total.nanos + a.nanos ≤ Delay.limit :=
          Nat.le_trans (Nat.le_add_right _ _) (hd ▸ d.le_limit)
        exact .inr ⟨a, t.chars us, ⟨_, hle⟩, rfl, rfl, (ih hus).2 ⟨t, rfl, hd⟩⟩

end

/-! ### Whole literals -/

theorem date?_eq_some_iff {cs : List Char} {d : Delay} : date? cs = some d ↔
    ∃ days, daysChars days = cs ∧ d.nanos = days.elim 0 Digits.value * 86400 * nanosPerSecond := by
  constructor
  · intro h
    unfold date? at h
    split at h
    next hcs =>
      cases h
      exact ⟨none, (List.reverse_eq_nil_iff.1 hcs).symm, rfl⟩
    next digits hcs =>
      obtain ⟨n, hn, hd⟩ := (units?_eq_some_iff (by decide)).1 h
      refine ⟨some n, ?_, hd⟩
      rw [daysChars, Option.elim_some, hn, ← List.reverse_cons, ← hcs, List.reverse_reverse]
    · cases h
  · rintro ⟨days, rfl, hd⟩
    cases days with
    | none =>
      exact congrArg some (Delay.ext hd.symm)
    | some n =>
      have hunits := (units?_eq_some_iff (by decide)).2 ⟨n, rfl, hd⟩
      rw [daysChars, Option.elim_some, date?, List.reverse_append]
      simpa using hunits

theorem delay?_eq_some_iff {cs : List Char} {d : Delay} : delay? cs = some d ↔
    ∃ f : Form, f.chars = cs ∧ d.nanos = f.seconds * nanosPerSecond + f.fraction := by
  constructor
  · intro h
    unfold delay? at h
    split at h
    next rest =>
      split at h
      · split at h
        · cases h
        next hne =>
          obtain ⟨days, hdays, hd⟩ := date?_eq_some_iff.1 h
          have hsome : days.isSome := by
            refine Option.isSome_iff_ne_none.2 fun hnone => hne ?_
            rw [← hdays, hnone, daysChars, Option.elim_none]
          refine ⟨⟨days, none, .inl hsome⟩, ?_, ?_⟩
          · rw [Form.chars, hdays, Option.elim_none, List.append_nil]
          · rw [Form.seconds, Form.fraction, Option.elim_none, Option.elim_none, hd, Nat.add_zero,
              Nat.add_zero]
      next date time hsplit =>
        obtain ⟨c, hc, rfl, -⟩ := splitOnce_eq_some_iff.1 hsplit
        obtain rfl := beq_iff_eq.1 hc
        split at h
        · cases h
        next hne =>
          obtain ⟨total, htotal, htime⟩ := Option.bind_eq_some_iff.1 h
          obtain ⟨days, rfl, hdays⟩ := date?_eq_some_iff.1 htotal
          obtain ⟨t, rfl, hd⟩ := (addTime?_eq_some_iff (by decide)).1 htime
          refine ⟨⟨days, some ⟨t, t.exists_isSome hne⟩, .inr rfl⟩, rfl, ?_⟩
          rw [Form.seconds, Form.fraction, Option.elim_some, Option.elim_some, hd, hdays,
            Nat.add_mul, Nat.add_assoc, ← Clock.nanos_amount]
    · cases h
  · rintro ⟨f, rfl, hd⟩
    rw [Form.chars, delay?, f.splitOnce_chars]
    cases hclock : f.clock with
    | none =>
      have hdays : f.days.isSome := f.some_part.resolve_right (by simp [hclock])
      obtain ⟨n, hn⟩ := Option.isSome_iff_exists.1 hdays
      have hne : daysChars f.days ≠ [] := by simp [hn, daysChars]
      rw [Form.seconds, Form.fraction, hclock, Option.elim_none, Option.elim_none, Nat.add_zero,
        Nat.add_zero] at hd
      rw [Option.elim_none, List.append_nil]
      exact (if_neg hne).trans (date?_eq_some_iff.2 ⟨f.days, rfl, hd⟩)
    | some t =>
      rw [Form.seconds, Form.fraction, hclock, Option.elim_some, Option.elim_some, Nat.add_mul,
        Nat.add_assoc, ← t.nanos_amount] at hd
      have hle : f.days.elim 0 Digits.value * 86400 * nanosPerSecond ≤ Delay.limit :=
        Nat.le_trans (Nat.le_add_right _ _) (hd ▸ d.le_limit)
      have hdate : date? (daysChars f.days) = some ⟨_, hle⟩ :=
        date?_eq_some_iff.2 ⟨f.days, rfl, rfl⟩
      refine (if_neg t.chars_ne_nil).trans (Option.bind_eq_some_iff.2 ⟨_, hdate, ?_⟩)
      exact (addTime?_eq_some_iff (by decide)).2 ⟨t.amount, rfl, hd⟩

/-- **Exactly the texts of the grammar are read.** A text is read when it spells a literal, blanks
around it and the case of its letters aside, whose whole seconds are a number of 64 bits. What is
read is the time that the literal stands for, and nothing is lost of it. Every other text is
refused, and the error has the text as it was given.

What is put together unchecked stays in range: decimals are less than a second, and with them a
number of seconds of 64 bits is still a delay. -/
theorem parse_accepts_exactly_the_grammar (s : String) :
    ((∃ d, parse s = .ok d) ↔ ∃ f : Form, f.Spells s ∧ f.seconds ≤ Decimal.max64) ∧
    (∀ d, parse s = .ok d → ∀ f : Form, f.Spells s →
      d.seconds = f.seconds ∧ d.fraction = f.fraction) ∧
    (∀ e, parse s = .error e → e = ⟨s⟩) ∧
    (∀ whole decimals w f, whole? whole = some w → Delay.fractionNanos? decimals = some f →
      f < nanosPerSecond ∧ ∃ d, Delay.ofNanos? (w * nanosPerSecond + f) = some d) := by
  have hread : ∀ d, parse s = .ok d ↔ delay? ((trim s.toList).map Char.toUpper) = some d := by
    intro d
    unfold parse
    cases delay? ((trim s.toList).map Char.toUpper) <;> simp
  refine ⟨?_, fun d hd f hf => ?_, fun e he => ?_, fun whole decimals w f hw hf => ?_⟩
  · simp only [hread, delay?_eq_some_iff]
    constructor
    · rintro ⟨d, f, hf, hd⟩
      exact ⟨f, hf, le_max64_of_nanos f.fraction_lt hd⟩
    · rintro ⟨f, hf, hle⟩
      obtain ⟨d, hd⟩ := (exists_nanos_iff f.fraction_lt).2 hle
      exact ⟨d, f, hf, hd⟩
  · obtain ⟨g, hg, hnanos⟩ := delay?_eq_some_iff.1 ((hread d).1 hd)
    obtain rfl : g = f := Form.chars_injective (hg.trans hf.symm)
    rw [Delay.seconds, Delay.fraction, hnanos]
    have hpos : 0 < nanosPerSecond := Nat.zero_lt_of_lt g.fraction_lt
    exact ⟨by rw [Nat.add_comm, Nat.add_mul_div_right _ _ hpos, Nat.div_eq_of_lt g.fraction_lt,
      Nat.zero_add], by rw [Nat.mul_add_mod_self_right, Nat.mod_eq_of_lt g.fraction_lt]⟩
  · unfold parse at he
    split at he
    · cases he
    · exact (Except.error.inj he).symm
  · obtain ⟨-, -, -, hle⟩ := whole?_eq_some_iff.1 hw
    obtain ⟨ds, -, rfl⟩ := (fractionNanos?_eq_some_iff (.inl rfl)).1 hf
    obtain ⟨d, hd⟩ := (exists_nanos_iff ds.nanos_lt).2 hle
    exact ⟨ds.nanos_lt, d, Delay.ofNanos?_eq_some_iff.2 hd⟩

example : (parse " p1dt1,5s ").map Delay.nanos = .ok 86401500000000 := by decide

example : parse "P1DT" = .error ⟨"P1DT"⟩ := by decide

end DurableQueue.Literal
