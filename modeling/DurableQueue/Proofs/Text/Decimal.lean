import Mathlib.Algebra.Order.Ring.Nat
import DurableQueue.Text.Decimal

/-!
# Runs of digits

What written numbers look like, with and without zeros in front, and where a run of digits ends.

* `number_lt`: a run of digits stands for a number below a power of ten;
* `head?_digits`: a written number has no zero in front;
* `length_padded` and `value?_padded`: a number filled up with zeros;
* `takeWhile_isDigit` and `dropWhile_isDigit`: a run of digits in front of something else.
-/

namespace DurableQueue.Decimal

theorem ofDigitChars_lt {cs : List Char} (h : cs.all Char.isDigit = true) (n : Nat) :
    Nat.ofDigitChars 10 cs n < (n + 1) * 10 ^ cs.length := by
  induction cs generalizing n with
  | nil => simp
  | cons c cs ih =>
    simp only [List.all_cons, Bool.and_eq_true] at h
    have hc : c.toNat ≤ '9'.toNat := (Char.isDigit_iff_toNat.1 h.1).2
    have hstep : 10 * n + (c.toNat - '0'.toNat) + 1 ≤ (n + 1) * 10 := by
      have : '9'.toNat = '0'.toNat + 9 := rfl
      omega
    calc Nat.ofDigitChars 10 (c :: cs) n
      _ = Nat.ofDigitChars 10 cs (10 * n + (c.toNat - '0'.toNat)) := Nat.ofDigitChars_cons
      _ < (10 * n + (c.toNat - '0'.toNat) + 1) * 10 ^ cs.length := ih h.2 _
      _ ≤ (n + 1) * 10 * 10 ^ cs.length := Nat.mul_le_mul_right _ hstep
      _ = (n + 1) * 10 ^ (c :: cs).length := by rw [List.length_cons, Nat.pow_succ']; ac_rfl

/-- A run of digits stands for a number below a power of ten. -/
theorem number_lt {cs : List Char} (h : cs.all Char.isDigit = true) :
    number cs < 10 ^ cs.length := by
  simpa [number] using ofDigitChars_lt h 0

theorem all_isDigit_digits (n : Nat) : (digits n).all Char.isDigit = true :=
  List.all_eq_true.2 fun _ => isDigit_of_mem_digits

/-- A number other than zero is written without a zero in front. -/
theorem head?_digits {n : Nat} (h : 0 < n) : (digits n).head? ≠ some '0' := by
  induction n using Nat.strongRecOn with
  | _ n ih =>
    rw [digits, Nat.toDigits_eq_if (by decide)]
    split
    next hlt =>
      have hchars : ∀ m < 10, 0 < m → m.digitChar ≠ '0' := by decide
      simpa using hchars n hlt h
    next hge =>
      have hhead := ih (n / 10) (by omega) (by omega)
      obtain ⟨c, cs, hcs⟩ := List.exists_cons_of_ne_nil (digits_ne_nil (n / 10))
      rw [hcs] at hhead
      rw [show Nat.toDigits 10 (n / 10) = c :: cs from hcs]
      exact hhead

/-- Only the number zero is written with a zero in front, and then nothing follows it. -/
theorem not_leading_zero (n : Nat) : ¬ ((digits n).length > 1 ∧ (digits n).head? = some '0') := by
  rintro ⟨hlength, hhead⟩
  obtain rfl | hpos := Nat.eq_zero_or_pos n
  · exact absurd hlength (by decide)
  · exact head?_digits hpos hhead

/-! ### Numbers filled up with zeros -/

section

variable {width n : Nat}

theorem number_replicate_append (k : Nat) (cs : List Char) :
    number (List.replicate k '0' ++ cs) = number cs := by
  induction k with
  | zero => rfl
  | succ k ih =>
    rw [List.replicate_succ, List.cons_append, number, Nat.ofDigitChars_cons]
    exact ih

theorem all_isDigit_padded (width n : Nat) : (padded width n).all Char.isDigit = true := by
  rw [padded, List.all_append, all_isDigit_digits, Bool.and_true, List.all_eq_true]
  intro c hc
  rw [List.eq_of_mem_replicate hc]
  rfl

theorem padded_ne_nil (width n : Nat) : padded width n ≠ [] :=
  List.append_ne_nil_of_right_ne_nil _ (digits_ne_nil n)

/-- A number filled up with zeros is read back. -/
@[simp] theorem value?_padded (width n : Nat) : value? (padded width n) = some n := by
  rw [value?, if_pos ⟨padded_ne_nil width n, all_isDigit_padded width n⟩, padded,
    number_replicate_append, number_digits]

/-- A number with at most so many digits is filled up to exactly so many. -/
theorem length_padded (hwidth : 0 < width) (hn : n < 10 ^ width) :
    (padded width n).length = width := by
  have hle : (digits n).length ≤ width := (Nat.length_toDigits_le_iff (by decide) hwidth).2 hn
  rw [padded, List.length_append, List.length_replicate]
  omega

end

/-! ### The end of a run of digits -/

section

variable {ds rest : List Char}

/-- Something that does not begin with a digit. -/
def EndsDigits (rest : List Char) : Prop := ∀ c, rest.head? = some c → c.isDigit = false

theorem endsDigits_cons {c : Char} (h : c.isDigit = false) (cs : List Char) :
    EndsDigits (c :: cs) := by
  rintro _ ⟨⟩
  exact h

theorem takeWhile_of_endsDigits (h : EndsDigits rest) : rest.takeWhile Char.isDigit = [] := by
  cases rest with
  | nil => rfl
  | cons c cs => rw [List.takeWhile_cons_of_neg (by simp [h c rfl])]

theorem dropWhile_of_endsDigits (h : EndsDigits rest) : rest.dropWhile Char.isDigit = rest := by
  cases rest with
  | nil => rfl
  | cons c cs => rw [List.dropWhile_cons_of_neg (by simp [h c rfl])]

theorem takeWhile_isDigit (hds : ds.all Char.isDigit = true) (h : EndsDigits rest) :
    (ds ++ rest).takeWhile Char.isDigit = ds := by
  rw [List.takeWhile_append_of_pos (List.all_eq_true.1 hds), takeWhile_of_endsDigits h,
    List.append_nil]

theorem dropWhile_isDigit (hds : ds.all Char.isDigit = true) (h : EndsDigits rest) :
    (ds ++ rest).dropWhile Char.isDigit = rest := by
  rw [List.dropWhile_append_of_pos (List.all_eq_true.1 hds), dropWhile_of_endsDigits h]

end

end DurableQueue.Decimal
