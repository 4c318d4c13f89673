/-!
# Whole numbers in decimal notation

* `Decimal.digits n` writes `n` with as few digits as possible;
* `Decimal.padded w n` writes `n` with at least `w` digits, zeros in front;
* `Decimal.value? cs` reads a non-empty run of ASCII digits, leading zeros allowed;
* `Decimal.readUpTo limit cs` reads a number from `0` to `limit`, an optional plus sign in
  front, and says what is wrong with any other text;
* `value?_digits` and `readUpTo_digits`: what is written is read back.
-/

namespace DurableQueue.Decimal

/-- The decimal digits of a number, without leading zeros. -/
def digits (n : Nat) : List Char := Nat.toDigits 10 n

/-- The decimal digits of a number, filled up with leading zeros to `width` characters. -/
def padded (width n : Nat) : List Char :=
  List.replicate (width - (digits n).length) '0' ++ digits n

/-- The decimal digits of an integer, a minus sign in front when it is negative. -/
def signed : Int → List Char
  | .ofNat n => digits n
  | .negSucc n => '-' :: digits (n + 1)

/-- The number that a run of digits stands for. -/
def number (cs : List Char) : Nat := Nat.ofDigitChars 10 cs 0

/-- Read a non-empty run of ASCII digits; anything else is refused. -/
def value? (cs : List Char) : Option Nat :=
  if cs ≠ [] ∧ cs.all Char.isDigit then some (number cs) else none

theorem digits_ne_nil (n : Nat) : digits n ≠ [] := Nat.toDigits_ne_nil

theorem isDigit_of_mem_digits {n : Nat} {c : Char} (h : c ∈ digits n) : c.isDigit = true :=
  Nat.isDigit_of_mem_toDigits (by decide) (by decide) h

@[simp] theorem number_digits (n : Nat) : number (digits n) = n :=
  Nat.ofDigitChars_toDigits (by decide) (by decide)

/-- A written number is read back. -/
@[simp] theorem value?_digits (n : Nat) : value? (digits n) = some n := by
  have h : (digits n).all Char.isDigit = true :=
    List.all_eq_true.2 fun _ hc => isDigit_of_mem_digits hc
  simp [value?, digits_ne_nil, h]

/-! ### Numbers up to a limit -/

/-- Why a text is no number between zero and the limit. -/
inductive Problem
  | empty
  | invalidDigit
  | tooLarge
  deriving DecidableEq, Repr

/-- The wording of a number problem. -/
def Problem.message : Problem → String
  | .empty => "cannot parse integer from empty string"
  | .invalidDigit => "invalid digit found in string"
  | .tooLarge => "number too large to fit in target type"

/-- Read digits after a number already read. The first fault from the left is the one that
is reported, so a digit that passes the limit hides what comes after it. -/
def continueUpTo (limit : Nat) : Nat → List Char → Except Problem Nat
  | n, [] => .ok n
  | n, c :: cs =>
    if c.isDigit then
      let m := 10 * n + (c.toNat - '0'.toNat)
      if m ≤ limit then continueUpTo limit m cs else .error .tooLarge
    else .error .invalidDigit

/-- Read a number from `0` to `limit`; one plus sign may stand in front of the digits. -/
def readUpTo (limit : Nat) : List Char → Except Problem Nat
  | [] => .error .empty
  | ['+'] => .error .invalidDigit
  | '+' :: cs => continueUpTo limit 0 cs
  | cs => continueUpTo limit 0 cs

/-- The greatest number of 32 bits. -/
def max32 : Nat := 4294967295

/-- The greatest number of 64 bits. -/
def max64 : Nat := 18446744073709551615

/-- The greatest number of 128 bits. -/
def max128 : Nat := 340282366920938463463374607431768211455

theorem le_ofDigitChars (n : Nat) (cs : List Char) : n ≤ Nat.ofDigitChars 10 cs n := by
  induction cs generalizing n with
  | nil => exact Nat.le_refl n
  | cons c cs ih =>
    have := ih (10 * n + (c.toNat - '0'.toNat))
    simp only [Nat.ofDigitChars, List.foldl_cons] at this ⊢
    omega

theorem continueUpTo_of_le {limit n : Nat} {cs : List Char} (hd : cs.all Char.isDigit = true)
    (h : Nat.ofDigitChars 10 cs n ≤ limit) :
    continueUpTo limit n cs = .ok (Nat.ofDigitChars 10 cs n) := by
  induction cs generalizing n with
  | nil => rfl
  | cons c cs ih =>
    simp only [List.all_cons, Bool.and_eq_true] at hd
    have hs : Nat.ofDigitChars 10 (c :: cs) n
        = Nat.ofDigitChars 10 cs (10 * n + (c.toNat - '0'.toNat)) := rfl
    rw [hs] at h ⊢
    have hm := Nat.le_trans (le_ofDigitChars _ cs) h
    simp only [continueUpTo, hd.1, hm, if_true]
    exact ih hd.2 h

/-- A written number within the limit is read back. -/
theorem readUpTo_digits {limit n : Nat} (h : n ≤ limit) : readUpTo limit (digits n) = .ok n := by
  have hd : (digits n).all Char.isDigit = true :=
    List.all_eq_true.2 fun _ hc => isDigit_of_mem_digits hc
  have hv : Nat.ofDigitChars 10 (digits n) 0 = n := number_digits n
  have hr : continueUpTo limit 0 (digits n) = .ok (Nat.ofDigitChars 10 (digits n) 0) :=
    continueUpTo_of_le hd (by rw [hv]; exact h)
  rw [hv] at hr
  have hp : ∀ c cs, digits n = c :: cs → c ≠ '+' := by
    intro c cs hc hplus
    have := isDigit_of_mem_digits (n := n) (c := c) (by simp [hc])
    subst hplus
    exact absurd this (by decide)
  cases hc : digits n with
  | nil => exact absurd hc (digits_ne_nil n)
  | cons c cs =>
    have hne := hp c cs hc
    rw [hc] at hr
    unfold readUpTo
    split <;> simp_all

end DurableQueue.Decimal
