import DurableQueue.Proofs.Text.Decimal
import DurableQueue.Proofs.Time.Calendar
import DurableQueue.Time.Timestamp

/-!
# Timestamps are read back

A written instant is read back, whatever its year and its decimals, leap seconds included.

* `readYear?_writeYear`, `readField?_padded` and `readDecimals?_writeDecimals` are about the parts
  of a timestamp, each in front of what follows it;
* `assemble?_parts` puts the parts of an instant together again;
* `read?_parts` and `read?_write` are about whole timestamps.
-/

namespace DurableQueue.Timestamp

open Decimal (padded digits number EndsDigits)
open Text (isBlank isBlank_of_isDigit trimStart trimStart_cons_of_not_blank)

/-! ### Numbers -/

theorem trimStart_digits {ds : List Char} (hd : ds.all Char.isDigit = true) (hne : ds ≠ [])
    (rest : List Char) : trimStart (ds ++ rest) = ds ++ rest := by
  obtain ⟨c, cs, rfl⟩ := List.exists_cons_of_ne_nil hne
  have hc : c.isDigit = true := List.all_eq_true.1 hd c List.mem_cons_self
  exact trimStart_cons_of_not_blank (isBlank_of_isDigit hc)

theorem isDigit_of_append_eq {ds rest cs : List Char} {c : Char} (hd : ds.all Char.isDigit = true)
    (hne : ds ≠ []) (h : ds ++ rest = c :: cs) : c.isDigit = true := by
  obtain ⟨d, ds, rfl⟩ := List.exists_cons_of_ne_nil hne
  obtain ⟨rfl, -⟩ := List.cons.inj h
  exact List.all_eq_true.1 hd d List.mem_cons_self

/-- At most so many characters are taken, and of those the run of digits in front. -/
theorem takeWhile_take {most : Nat} {ds rest : List Char} (hd : ds.all Char.isDigit = true)
    (h : ds.length = most ∨ ds.length ≤ most ∧ EndsDigits rest) :
    ((ds ++ rest).take most).takeWhile Char.isDigit = ds := by
  rcases h with hlength | ⟨hle, hrest⟩
  · rw [← hlength, List.take_left]
    have hself : (ds ++ []).takeWhile Char.isDigit = ds := Decimal.takeWhile_isDigit hd nofun
    rwa [List.append_nil] at hself
  · have hends : EndsDigits (rest.take (most - ds.length)) := by
      intro c hc
      cases rest with
      | nil => simp at hc
      | cons d rest =>
        cases hk : most - ds.length with
        | zero => simp [hk] at hc
        | succ k => exact hrest c (by simpa [hk] using hc)
    rw [List.take_append, List.take_of_length_le hle, Decimal.takeWhile_isDigit hd hends]

theorem readNumber?_append {most : Nat} {ds rest : List Char} (hne : ds ≠ [])
    (hd : ds.all Char.isDigit = true)
    (h : ds.length = most ∨ ds.length ≤ most ∧ EndsDigits rest) :
    readNumber? most (ds ++ rest) = some (number ds, rest) := by
  rw [readNumber?, takeWhile_take hd h, Decimal.value?, if_pos ⟨hne, hd⟩, List.drop_left]
  rfl

theorem readNumber?_padded {most width n : Nat} {rest : List Char}
    (h : (padded width n).length = most ∨ (padded width n).length ≤ most ∧ EndsDigits rest) :
    readNumber? most (padded width n ++ rest) = some (n, rest) := by
  have hvalue := Decimal.value?_padded width n
  rw [Decimal.value?, if_pos ⟨Decimal.padded_ne_nil width n, Decimal.all_isDigit_padded width n⟩,
    Option.some.injEq] at hvalue
  rw [readNumber?_append (Decimal.padded_ne_nil width n) (Decimal.all_isDigit_padded width n) h,
    hvalue]

/-! ### The parts of a timestamp -/

/-- A number of two digits is read back, whatever follows it. -/
theorem readField?_padded {n : Nat} (h : n < 100) (rest : List Char) :
    readField? (padded 2 n ++ rest) = some (n, rest) := by
  rw [readField?, trimStart_digits (Decimal.all_isDigit_padded 2 n) (Decimal.padded_ne_nil 2 n),
    readNumber?_padded (.inl (Decimal.length_padded (by decide) h))]

theorem readMark?_cons {mark : Char} (h : isBlank mark = false) (rest : List Char) :
    readMark? mark (mark :: rest) = some rest := by
  rw [readMark?, trimStart_cons_of_not_blank h]
  simp [Text.stripPrefix]

/-- A year is read back in front of the mark that follows it. -/
theorem readYear?_writeYear (y : Int) (rest : List Char) :
    readYear? (writeYear y ++ '-' :: rest) = some (y, '-' :: rest) := by
  have hends : EndsDigits ('-' :: rest) := Decimal.endsDigits_cons rfl rest
  -- a sign goes with any number of digits
  have hsigned : ∀ n : Nat,
      readNumber? (padded 4 n ++ '-' :: rest).length (padded 4 n ++ '-' :: rest)
        = some (n, '-' :: rest) := fun n =>
    readNumber?_padded (.inr ⟨by rw [List.length_append]; exact Nat.le_add_right _ _, hends⟩)
  unfold writeYear
  split
  next hshort =>
    have hlength : (padded 4 y.toNat).length = 4 := Decimal.length_padded (by decide) (by omega)
    have hread : readNumber? 4 (padded 4 y.toNat ++ '-' :: rest) = some (y.toNat, '-' :: rest) :=
      readNumber?_padded (.inl hlength)
    have hdigits := Decimal.all_isDigit_padded 4 y.toNat
    have hne := Decimal.padded_ne_nil 4 y.toNat
    rw [readYear?, trimStart_digits hdigits hne]
    split
    next hsign => exact absurd (isDigit_of_append_eq hdigits hne hsign) (by decide)
    next hsign => exact absurd (isDigit_of_append_eq hdigits hne hsign) (by decide)
    · rw [hread, Option.map_some]
      dsimp only
      rw [Int.toNat_of_nonneg hshort.1]
  next hlong =>
    by_cases hneg : y < 0
    · rw [if_pos hneg, List.cons_append, readYear?, trimStart_cons_of_not_blank (by decide)]
      simp only [hsigned, Option.map_some]
      rw [show -((y.natAbs : Nat) : Int) = y by omega]
    · rw [if_neg hneg, List.cons_append, readYear?, trimStart_cons_of_not_blank (by decide)]
      simp only [hsigned, Option.map_some]
      rw [show ((y.natAbs : Nat) : Int) = y by omega]

/-- Decimals are read back in front of the letter `Z`. -/
theorem readDecimals?_writeDecimals {nano : Nat} (h : nano < nanosPerSecond) (rest : List Char) :
    readDecimals? (writeDecimals nano ++ 'Z' :: rest) = some (nano, 'Z' :: rest) := by
  have hends : EndsDigits ('Z' :: rest) := Decimal.endsDigits_cons rfl rest
  have hpadded : ∀ width n : Nat, (padded width n).length = width → width ≤ 9 →
      readDecimals? ('.' :: padded width n ++ 'Z' :: rest)
        = some (n * Nat.pow 10 (9 - width), 'Z' :: rest) := by
    intro width n hlength hle
    rw [List.cons_append, readDecimals?]
    have hmost : (padded width n).length ≤ 9 := by rwa [hlength]
    simp only [takeWhile_take (Decimal.all_isDigit_padded width n) (.inr ⟨hmost, hends⟩),
      Decimal.value?_padded, Option.map_some, hlength, List.drop_left' hlength,
      Decimal.dropWhile_of_endsDigits hends]
  have hnanos : nanosPerSecond = 1000000000 := rfl
  unfold writeDecimals
  split
  next hzero =>
    rw [hzero]
    rfl
  split
  next hmillis =>
    rw [hpadded 3 _ (Decimal.length_padded (by decide) (by omega)) (by decide),
      show nano / 1000000 * Nat.pow 10 (9 - 3) = nano from
        Nat.div_mul_cancel (Nat.dvd_of_mod_eq_zero hmillis)]
  split
  next hmicros =>
    rw [hpadded 6 _ (Decimal.length_padded (by decide) (by omega)) (by decide),
      show nano / 1000 * Nat.pow 10 (9 - 6) = nano from
        Nat.div_mul_cancel (Nat.dvd_of_mod_eq_zero hmicros)]
  next =>
    rw [hpadded 9 _ (Decimal.length_padded (by decide) (by omega)) (by decide),
      show nano * Nat.pow 10 (9 - 9) = nano from Nat.mul_one nano]

/-- The nanoseconds of an instant within the second that is written. -/
theorem nano_lt (t : Instant) :
    (if t.inLeapSecond then t.nano - nanosPerSecond else t.nano) < nanosPerSecond := by
  obtain ⟨-, -, hnano⟩ := t.valid
  split
  next hleap =>
    have hle := Instant.inLeapSecond_iff.1 hleap
    omega
  next hleap =>
    have hlt := mt Instant.inLeapSecond_iff.2 hleap
    omega

/-- The parts of an instant make it up again. A leap second is second 60 of its minute. -/
theorem assemble?_parts (t : Instant) :
    assemble? (Calendar.civilFromDays (t.second / 86400)) ((t.second % 86400).toNat / 3600)
      ((t.second % 86400).toNat / 60 % 60)
      ((t.second % 86400).toNat % 60 + if t.inLeapSecond then 1 else 0)
      (if t.inLeapSecond then t.nano - nanosPerSecond else t.nano) 0 = some t := by
  have hvalid := Calendar.isValid_civilFromDays (t.second / 86400)
  obtain ⟨-, -, hnano⟩ := t.valid
  generalize hs : (t.second % 86400).toNat = s
  have hday : (s : Int) = t.second % 86400 := by omega
  -- the second and the nanosecond that are put together, and the checks on the way to them
  have hput : ∀ second nano : Nat, second ≤ 60 →
      t.second / 86400 * 86400 + (s / 3600 : Nat) * 3600 + (s / 60 % 60 : Nat) * 60 +
        (if second = 60 then 59 else second : Nat) = t.second →
      (if second = 60 then nano + nanosPerSecond else nano) = t.nano →
      assemble? (Calendar.civilFromDays (t.second / 86400)) (s / 3600) (s / 60 % 60) second nano 0
        = some t := by
    intro second nano hle hsecond hn
    have hof : Instant.of? t.second t.nano = some t := Instant.of?_eq_some.2 ⟨rfl, rfl⟩
    rw [assemble?, if_pos ⟨hvalid, by omega, by omega, hle⟩]
    simp only [Calendar.daysFromCivil_civilFromDays, hsecond, hn, Int.sub_zero, hof,
      Option.bind_eq_bind, Option.bind_some]
  cases hleap : t.inLeapSecond with
  | true =>
    have hle := Instant.inLeapSecond_iff.1 hleap
    have hminute : t.second % 60 = 59 := by
      rcases hnano with hlt | ⟨-, h⟩
      · omega
      · exact h
    have h60 : s % 60 + 1 = 60 := by omega
    rw [if_pos rfl, if_pos rfl, h60]
    refine hput 60 _ (Nat.le_refl 60) ?_ ?_
    · rw [if_pos rfl]
      omega
    · rw [if_pos rfl, Nat.sub_add_cancel hle]
  | false =>
    have h59 : s % 60 ≠ 60 := by omega
    rw [if_neg Bool.false_ne_true, if_neg Bool.false_ne_true, Nat.add_zero]
    refine hput (s % 60) _ (by omega) ?_ ?_
    · rw [if_neg h59]
      omega
    · rw [if_neg h59]

/-- The parts of a timestamp are read one after the other and put together. -/
theorem read?_parts {y : Int} {month day hour minute second nano : Nat} {t : Instant}
    (hmonth : month < 100) (hday : day < 100) (hhour : hour < 100) (hminute : minute < 100)
    (hsecond : second < 100) (hnano : nano < nanosPerSecond)
    (ht : assemble? ⟨y, month, day⟩ hour minute second nano 0 = some t) :
    read? (String.ofList (writeYear y ++ '-' :: padded 2 month ++ '-' :: padded 2 day
      ++ 'T' :: padded 2 hour ++ ':' :: padded 2 minute ++ ':' :: padded 2 second
      ++ writeDecimals nano ++ ['Z'])) = some t := by
  rw [read?, String.toList_ofList]
  simp only [List.append_assoc, List.cons_append]
  refine Option.bind_eq_some_iff.2 ⟨_, readYear?_writeYear y _, ?_⟩
  refine Option.bind_eq_some_iff.2 ⟨_, readMark?_cons rfl _, ?_⟩
  refine Option.bind_eq_some_iff.2 ⟨_, readField?_padded hmonth _, ?_⟩
  refine Option.bind_eq_some_iff.2 ⟨_, readMark?_cons rfl _, ?_⟩
  refine Option.bind_eq_some_iff.2 ⟨_, readField?_padded hday _, ?_⟩
  refine Option.bind_eq_some_iff.2 ⟨_, rfl, ?_⟩
  refine Option.bind_eq_some_iff.2 ⟨_, readField?_padded hhour _, ?_⟩
  refine Option.bind_eq_some_iff.2 ⟨_, readMark?_cons rfl _, ?_⟩
  refine Option.bind_eq_some_iff.2 ⟨_, readField?_padded hminute _, ?_⟩
  refine Option.bind_eq_some_iff.2 ⟨_, readMark?_cons rfl _, ?_⟩
  refine Option.bind_eq_some_iff.2 ⟨_, readField?_padded hsecond _, ?_⟩
  refine Option.bind_eq_some_iff.2 ⟨_, readDecimals?_writeDecimals hnano _, ?_⟩
  exact Option.bind_eq_some_iff.2 ⟨(0, []), rfl, ht⟩

/-- **A written instant is read back**, whatever its year, its decimals and leap seconds. -/
theorem read?_write (t : Instant) : read? (write t) = some t := by
  obtain ⟨hmonth, hday⟩ :=
    Calendar.Date.le_of_isValid (Calendar.isValid_civilFromDays (t.second / 86400))
  have hhour : (t.second % 86400).toNat / 3600 < 100 := by omega
  have hminute : (t.second % 86400).toNat / 60 % 60 < 100 := by omega
  have hsecond : ((t.second % 86400).toNat % 60 + if t.inLeapSecond then 1 else 0) < 100 := by
    split <;> omega
  exact read?_parts (Nat.lt_of_le_of_lt hmonth (by decide)) (Nat.lt_of_le_of_lt hday (by decide))
    hhour hminute hsecond (nano_lt t) (assemble?_parts t)

end DurableQueue.Timestamp
