import Mathlib.Data.List.Basic
import Mathlib.Logic.Function.Basic
import DurableQueue.Proofs.Text.Decimal
import DurableQueue.Time.Literal

/-!
# The grammar of duration literals

Which texts are duration literals, apart from how they are read: the parts of a literal, the text
that they make up and the time that they stand for.

* `Digits`, `Decimals`, `Amount`, `Clock` and `Form` are the parts, each well formed by its type;
* `Form.seconds` and `Form.fraction` are the time that a literal stands for;
* `Form.chars_injective`: a text is at most one literal.
-/

namespace DurableQueue.Literal

open Text (trim splitOnce splitOnce_eq_none_iff splitOnce_eq_some_iff)

/-! ### Numbers -/

/-- A non-empty run of ASCII digits. -/
@[ext]
structure Digits where
  chars : List Char
  ne_nil : chars ≠ []
  all_digits : chars.all Char.isDigit = true

namespace Digits

/-- The number that the digits stand for. -/
def value (n : Digits) : Nat := Decimal.number n.chars

theorem isDigit (n : Digits) {c : Char} (h : c ∈ n.chars) : c.isDigit = true :=
  List.all_eq_true.1 n.all_digits c h

theorem value_lt (n : Digits) : n.value < 10 ^ n.chars.length := Decimal.number_lt n.all_digits

end Digits

/-! ### Amounts of a unit -/

/-- Decimals of a second: a point or a comma and one to nine digits. -/
@[ext]
structure Decimals where
  mark : Char
  digits : Digits
  mark_eq : mark = '.' ∨ mark = ','
  length_le : digits.chars.length ≤ 9

namespace Decimals

/-- The text of the decimals. -/
def chars (f : Decimals) : List Char := f.mark :: f.digits.chars

/-- The nanoseconds that the decimals stand for, as many of them as nine places make. -/
def nanos (f : Decimals) : Nat := f.digits.value * 10 ^ (9 - f.digits.chars.length)

theorem nanos_lt (f : Decimals) : f.nanos < nanosPerSecond := by
  have hpos : 0 < 10 ^ (9 - f.digits.chars.length) := Nat.pow_pos (by decide)
  calc f.nanos
    _ < 10 ^ f.digits.chars.length * 10 ^ (9 - f.digits.chars.length) :=
      Nat.mul_lt_mul_of_pos_right f.digits.value_lt hpos
    _ = 10 ^ 9 := by rw [← Nat.pow_add, Nat.add_sub_cancel' f.length_le]

end Decimals

theorem isMark_eq_true_iff {c : Char} : (c == '.' || c == ',') = true ↔ c = '.' ∨ c = ',' := by
  simp

theorem isMark_of_isDigit {c : Char} (h : c.isDigit = true) : (c == '.' || c == ',') = false := by
  rw [Bool.eq_false_iff, ne_eq, isMark_eq_true_iff]
  rintro (rfl | rfl) <;> exact absurd h (by decide)

theorem not_isAlpha_of_isDigit {c : Char} (h : c.isDigit = true) : c.isAlpha = false := by
  obtain ⟨-, hhigh⟩ := Char.isDigit_iff_toNat.1 h
  rw [Bool.eq_false_iff]
  intro halpha
  -- letters come after the digits
  have hletter : 'A'.toNat ≤ c.toNat ∨ 'a'.toNat ≤ c.toNat :=
    (Bool.or_eq_true_iff.1 halpha).imp (fun hupper => (of_decide_eq_true hupper).1)
      fun hlower => of_decide_eq_true (Bool.and_eq_true_iff.1 hlower).1
  have hupper : '9'.toNat < 'A'.toNat := by decide
  have hlower : '9'.toNat < 'a'.toNat := by decide
  omega

/-- The seconds in a unit. -/
def TimeUnit.size : TimeUnit → Nat
  | .hours => 3600
  | .minutes => 60
  | .seconds => 1

/-- An amount of a unit: a whole number, and for seconds perhaps decimals. -/
@[ext]
structure Amount (u : TimeUnit) where
  whole : Digits
  decimals : Option Decimals
  only_seconds : decimals.isSome → u = .seconds

namespace Amount

variable {u : TimeUnit}

/-- The text of an amount, without the letter of its unit. -/
def chars (a : Amount u) : List Char := a.whole.chars ++ a.decimals.elim [] Decimals.chars

/-- The whole seconds of an amount. -/
def seconds (a : Amount u) : Nat := a.whole.value * u.size

/-- The nanoseconds of an amount beyond its whole seconds. -/
def fraction (a : Amount u) : Nat := a.decimals.elim 0 Decimals.nanos

/-- All the nanoseconds of an amount. -/
def nanos (a : Amount u) : Nat := a.seconds * nanosPerSecond + a.fraction

/-- A whole number of a unit. -/
def ofWhole (u : TimeUnit) (ds : Digits) : Amount u :=
  ⟨ds, none, fun h => absurd h Bool.false_ne_true⟩

theorem chars_ofWhole (u : TimeUnit) (ds : Digits) : (ofWhole u ds).chars = ds.chars :=
  List.append_nil ds.chars

theorem nanos_ofWhole (u : TimeUnit) (ds : Digits) :
    (ofWhole u ds).nanos = ds.value * u.size * nanosPerSecond :=
  Nat.add_zero _

theorem fraction_lt (a : Amount u) : a.fraction < nanosPerSecond := by
  unfold fraction
  cases a.decimals with
  | none => decide
  | some f => exact f.nanos_lt

theorem decimals_eq_none (a : Amount u) (h : u ≠ .seconds) : a.decimals = none :=
  Option.not_isSome_iff_eq_none.1 fun hsome => h (a.only_seconds hsome)

theorem fraction_eq_zero (a : Amount u) (h : u ≠ .seconds) : a.fraction = 0 := by
  rw [fraction, a.decimals_eq_none h, Option.elim_none]

/-- No letter stands inside an amount. -/
theorem not_isAlpha (a : Amount u) {c : Char} (h : c ∈ a.chars) : c.isAlpha = false := by
  rw [chars, List.mem_append] at h
  rcases h with h | h
  · exact not_isAlpha_of_isDigit (a.whole.isDigit h)
  · cases hf : a.decimals with
    | none => simp [hf] at h
    | some f =>
      rw [hf] at h
      rcases List.mem_cons.1 h with rfl | h
      · rcases f.mark_eq with hm | hm <;> rw [hm] <;> rfl
      · exact not_isAlpha_of_isDigit (f.digits.isDigit h)

/-- The mark, if there is one, is where an amount is cut. -/
theorem splitOnce_chars (a : Amount u) : splitOnce (fun c => c == '.' || c == ',') a.chars
    = a.decimals.map fun f => (a.whole.chars, f.digits.chars) := by
  have hdigits : ∀ c ∈ a.whole.chars, (c == '.' || c == ',') = false :=
    fun c hc => isMark_of_isDigit (a.whole.isDigit hc)
  unfold chars
  cases a.decimals with
  | none =>
    rw [Option.elim_none, List.append_nil, Option.map_none]
    exact splitOnce_eq_none_iff.2 hdigits
  | some f =>
    rw [Option.elim_some, Option.map_some]
    exact splitOnce_eq_some_iff.2 ⟨f.mark, isMark_eq_true_iff.2 f.mark_eq, rfl, hdigits⟩

/-- An amount is determined by its text. -/
theorem chars_injective {a b : Amount u} (h : a.chars = b.chars) : a = b := by
  have hsplit := congrArg (splitOnce fun c => c == '.' || c == ',') h
  rw [a.splitOnce_chars, b.splitOnce_chars] at hsplit
  unfold chars at h
  cases ha : a.decimals with
  | none =>
    cases hb : b.decimals with
    | none =>
      rw [ha, hb, Option.elim_none, List.append_nil, List.append_nil] at h
      exact Amount.ext (Digits.ext h) (ha.trans hb.symm)
    | some g => simp [ha, hb] at hsplit
  | some f =>
    cases hb : b.decimals with
    | none => simp [ha, hb] at hsplit
    | some g =>
      rw [ha, hb, Option.map_some, Option.map_some, Option.some.injEq, Prod.mk.injEq] at hsplit
      rw [ha, hb, Option.elim_some, Option.elim_some, hsplit.1] at h
      have hmark : f.mark = g.mark := (List.cons.inj (List.append_cancel_left h)).1
      have hfg : f = g := Decimals.ext hmark (Digits.ext hsplit.2)
      exact Amount.ext (Digits.ext hsplit.1) (by rw [ha, hb, hfg])

end Amount

/-! ### Behind the letter `T` -/

theorem TimeUnit.isAlpha_letter (u : TimeUnit) : u.letter.isAlpha = true := by cases u <;> rfl

theorem TimeUnit.letter_injective {u v : TimeUnit} (h : u.letter = v.letter) : u = v := by
  cases u <;> cases v <;> first | rfl | cases h

/-- A text is cut at its first letter in one way only. -/
theorem append_letter_inj {a b r r' : List Char} {x y : Char} (h : a ++ x :: r = b ++ y :: r')
    (ha : ∀ c ∈ a, c.isAlpha = false) (hb : ∀ c ∈ b, c.isAlpha = false) (hx : x.isAlpha = true)
    (hy : y.isAlpha = true) : a = b ∧ x = y ∧ r = r' := by
  have hleft : splitOnce Char.isAlpha (a ++ x :: r) = some (a, r) :=
    splitOnce_eq_some_iff.2 ⟨x, hx, rfl, ha⟩
  have hright : splitOnce Char.isAlpha (a ++ x :: r) = some (b, r') :=
    splitOnce_eq_some_iff.2 ⟨y, hy, h, hb⟩
  obtain ⟨rfl, rfl⟩ := Prod.mk.inj (Option.some.inj (hleft.symm.trans hright))
  exact ⟨rfl, (List.cons.inj (List.append_cancel_left h)).1, rfl⟩

/-- For each unit perhaps an amount of it. -/
abbrev Amounts := (u : TimeUnit) → Option (Amount u)

namespace Amounts

/-- The text of the amounts of some units, in their order. -/
def chars (t : Amounts) (us : List TimeUnit) : List Char :=
  us.flatMap fun u => (t u).elim [] fun a => a.chars ++ [u.letter]

/-- The nanoseconds of the amounts of some units. -/
def nanos (t : Amounts) (us : List TimeUnit) : Nat :=
  (us.map fun u => (t u).elim 0 Amount.nanos).sum

variable {t t' : Amounts} {u : TimeUnit} {us : List TimeUnit}

theorem chars_cons_of_none (h : t u = none) : t.chars (u :: us) = t.chars us := by
  rw [chars, List.flatMap_cons, h, Option.elim_none, List.nil_append, chars]

theorem chars_cons_of_some {a : Amount u} (h : t u = some a) :
    t.chars (u :: us) = a.chars ++ u.letter :: t.chars us := by
  rw [chars, List.flatMap_cons, h, Option.elim_some, List.append_assoc, List.singleton_append,
    chars]

theorem nanos_cons_of_none (h : t u = none) : t.nanos (u :: us) = t.nanos us := by
  rw [nanos, List.map_cons, List.sum_cons, h, Option.elim_none, Nat.zero_add, nanos]

theorem nanos_cons_of_some {a : Amount u} (h : t u = some a) :
    t.nanos (u :: us) = a.nanos + t.nanos us := by
  rw [nanos, List.map_cons, List.sum_cons, h, Option.elim_some, nanos]

theorem chars_update (h : u ∉ us) (o : Option (Amount u)) :
    chars (Function.update t u o) us = t.chars us :=
  List.flatMap_congr fun v hv => by rw [Function.update_of_ne (ne_of_mem_of_not_mem hv h)]

theorem nanos_update (h : u ∉ us) (o : Option (Amount u)) :
    nanos (Function.update t u o) us = t.nanos us :=
  congrArg List.sum <| List.map_congr_left fun v hv => by
    rw [Function.update_of_ne (ne_of_mem_of_not_mem hv h)]

/-- A text is made up of some amount. -/
theorem exists_isSome (h : t.chars us ≠ []) : ∃ u, (t u).isSome := by
  obtain ⟨u, -, hu⟩ : ∃ u ∈ us, _ ≠ [] := by simpa only [chars, ne_eq, List.flatMap_eq_nil_iff,
    not_forall, exists_prop] using h
  refine ⟨u, Option.isSome_iff_ne_none.2 fun hnone => hu ?_⟩
  rw [hnone, Option.elim_none]

/-- The first letter of a text of amounts is that of a unit. -/
theorem mem_of_first_letter {number rest : List Char}
    (h : t.chars us = number ++ u.letter :: rest) (hnumber : ∀ c ∈ number, c.isAlpha = false) :
    u ∈ us := by
  induction us with
  | nil => simp [chars] at h
  | cons v us ih =>
    cases hv : t v with
    | none =>
      rw [chars_cons_of_none hv] at h
      exact List.mem_cons_of_mem _ (ih h)
    | some a =>
      rw [chars_cons_of_some hv] at h
      obtain ⟨-, hletter, -⟩ := append_letter_inj h (fun _ => a.not_isAlpha) hnumber
        v.isAlpha_letter u.isAlpha_letter
      rw [TimeUnit.letter_injective hletter]
      exact List.mem_cons_self

/-- The amounts of some units are determined by their text. -/
theorem eq_of_chars_eq (hus : us.Nodup) (h : t.chars us = t'.chars us) : ∀ u ∈ us, t u = t' u := by
  induction us with
  | nil => exact nofun
  | cons u us ih =>
    obtain ⟨hu, hus⟩ := List.nodup_cons.1 hus
    suffices t u = t' u ∧ t.chars us = t'.chars us from
      List.forall_mem_cons.2 ⟨this.1, ih hus this.2⟩
    cases ht : t u with
    | none =>
      rw [chars_cons_of_none ht] at h
      cases ht' : t' u with
      | none =>
        rw [chars_cons_of_none ht'] at h
        exact ⟨rfl, h⟩
      | some b =>
        rw [chars_cons_of_some ht'] at h
        exact absurd (mem_of_first_letter h fun _ => b.not_isAlpha) hu
    | some a =>
      rw [chars_cons_of_some ht] at h
      cases ht' : t' u with
      | none =>
        rw [chars_cons_of_none ht'] at h
        exact absurd (mem_of_first_letter h.symm fun _ => a.not_isAlpha) hu
      | some b =>
        rw [chars_cons_of_some ht'] at h
        obtain ⟨hchars, -, hrest⟩ := append_letter_inj h (fun _ => a.not_isAlpha)
          (fun _ => b.not_isAlpha) u.isAlpha_letter u.isAlpha_letter
        exact ⟨congrArg some (Amount.chars_injective hchars), hrest⟩

end Amounts

/-- The part behind the letter `T`: amounts of one unit at least. -/
@[ext]
structure Clock where
  amount : Amounts
  some_unit : ∃ u, (amount u).isSome

namespace Clock

/-- The text behind the letter `T`: first the hours, then the minutes, then the seconds. -/
def chars (t : Clock) : List Char := t.amount.chars [.hours, .minutes, .seconds]

/-- The whole seconds of all amounts. -/
def seconds (t : Clock) : Nat :=
  (t.amount .hours).elim 0 Amount.seconds + (t.amount .minutes).elim 0 Amount.seconds +
    (t.amount .seconds).elim 0 Amount.seconds

/-- The nanoseconds beyond the whole seconds. -/
def fraction (t : Clock) : Nat := (t.amount .seconds).elim 0 Amount.fraction

theorem fraction_lt (t : Clock) : t.fraction < nanosPerSecond := by
  unfold fraction
  cases t.amount .seconds with
  | none => decide
  | some a => exact a.fraction_lt

theorem chars_ne_nil (t : Clock) : t.chars ≠ [] := by
  obtain ⟨u, hu⟩ := t.some_unit
  obtain ⟨a, ha⟩ := Option.isSome_iff_exists.1 hu
  have hmem : u ∈ [TimeUnit.hours, .minutes, .seconds] := by cases u <;> decide
  intro hnil
  have := List.flatMap_eq_nil_iff.1 hnil u hmem
  simp [ha] at this

theorem chars_injective {t t' : Clock} (h : t.chars = t'.chars) : t = t' := by
  ext1
  funext u
  exact Amounts.eq_of_chars_eq (by decide) h u (by cases u <;> decide)

theorem nanos_amount (t : Clock) :
    t.amount.nanos [.hours, .minutes, .seconds] = t.seconds * nanosPerSecond + t.fraction := by
  have hwhole : ∀ u, u ≠ .seconds → (t.amount u).elim 0 Amount.nanos
      = (t.amount u).elim 0 Amount.seconds * nanosPerSecond := by
    intro u hu
    cases t.amount u with
    | none => rw [Option.elim_none, Option.elim_none, Nat.zero_mul]
    | some a =>
      rw [Option.elim_some, Option.elim_some, Amount.nanos, a.fraction_eq_zero hu, Nat.add_zero]
  have hseconds : (t.amount .seconds).elim 0 Amount.nanos
      = (t.amount .seconds).elim 0 Amount.seconds * nanosPerSecond + t.fraction := by
    unfold fraction
    cases t.amount .seconds with
    | none => rw [Option.elim_none, Option.elim_none, Option.elim_none, Nat.zero_mul]
    | some a => rw [Option.elim_some, Option.elim_some, Option.elim_some, Amount.nanos]
  have hsum : t.amount.nanos [.hours, .minutes, .seconds] = (t.amount .hours).elim 0 Amount.nanos +
      (t.amount .minutes).elim 0 Amount.nanos + (t.amount .seconds).elim 0 Amount.nanos := by
    simp only [Amounts.nanos, List.map_cons, List.map_nil, List.sum_cons, List.sum_nil]
    omega
  rw [hsum, hwhole .hours nofun, hwhole .minutes nofun, hseconds, seconds, Nat.add_mul, Nat.add_mul,
    Nat.add_assoc _ _ t.fraction]

end Clock

/-! ### Whole literals -/

/-- The days in front of the letter `T`. -/
def daysChars (days : Option Digits) : List Char := days.elim [] fun n => n.chars ++ ['D']

theorem notMem_daysChars (days : Option Digits) : ∀ c ∈ daysChars days, (c == 'T') = false := by
  intro c hc
  cases days with
  | none => cases hc
  | some n =>
    rcases List.mem_append.1 hc with hc | hc
    · refine beq_eq_false_iff_ne.2 ?_
      rintro rfl
      exact absurd (n.isDigit hc) (by decide)
    · rw [List.mem_singleton.1 hc]
      rfl

theorem daysChars_injective {m n : Option Digits} (h : daysChars m = daysChars n) : m = n := by
  cases m with
  | none =>
    cases n with
    | none => rfl
    | some n => simp [daysChars] at h
  | some m =>
    cases n with
    | none => simp [daysChars] at h
    | some n => exact congrArg some (Digits.ext (List.append_cancel_right h))

/-- A literal: days, a part behind the letter `T`, or both. -/
@[ext]
structure Form where
  days : Option Digits
  clock : Option Clock
  some_part : days.isSome ∨ clock.isSome

namespace Form

/-- The text of a literal. -/
def chars (f : Form) : List Char :=
  'P' :: (daysChars f.days ++ f.clock.elim [] fun t => 'T' :: t.chars)

/-- The whole seconds of a literal. -/
def seconds (f : Form) : Nat :=
  f.days.elim 0 Digits.value * 86400 + f.clock.elim 0 Clock.seconds

/-- The nanoseconds of a literal beyond its whole seconds. -/
def fraction (f : Form) : Nat := f.clock.elim 0 Clock.fraction

theorem fraction_lt (f : Form) : f.fraction < nanosPerSecond := by
  unfold fraction
  cases f.clock with
  | none => decide
  | some t => exact t.fraction_lt

/-- The letter `T`, if there is one, is where a literal is cut. -/
theorem splitOnce_chars (f : Form) :
    splitOnce (· == 'T') (daysChars f.days ++ f.clock.elim [] fun t => 'T' :: t.chars)
      = f.clock.map fun t => (daysChars f.days, t.chars) := by
  cases f.clock with
  | none =>
    rw [Option.elim_none, List.append_nil, Option.map_none]
    exact splitOnce_eq_none_iff.2 (notMem_daysChars _)
  | some t =>
    rw [Option.elim_some, Option.map_some]
    exact splitOnce_eq_some_iff.2 ⟨'T', rfl, rfl, notMem_daysChars _⟩

/-- A literal is determined by its text. -/
theorem chars_injective {f g : Form} (h : f.chars = g.chars) : f = g := by
  have htail := (List.cons.inj h).2
  have hsplit := congrArg (splitOnce (· == 'T')) htail
  rw [f.splitOnce_chars, g.splitOnce_chars] at hsplit
  cases hf : f.clock with
  | none =>
    cases hg : g.clock with
    | none =>
      rw [hf, hg, Option.elim_none, List.append_nil, List.append_nil] at htail
      exact Form.ext (daysChars_injective htail) (hf.trans hg.symm)
    | some t => simp [hf, hg] at hsplit
  | some t =>
    cases hg : g.clock with
    | none => simp [hf, hg] at hsplit
    | some t' =>
      rw [hf, hg, Option.map_some, Option.map_some, Option.some.injEq, Prod.mk.injEq] at hsplit
      have htt' : t = t' := Clock.chars_injective hsplit.2
      exact Form.ext (daysChars_injective hsplit.1) (by rw [hf, hg, htt'])

end Form

/-- A text is a literal once it is trimmed and written in capitals. -/
def Form.Spells (f : Form) (s : String) : Prop := f.chars = (trim s.toList).map Char.toUpper

end DurableQueue.Literal
