import DurableQueue.Text.Decimal

/-!
# Counters

A counter is a number of 32 bits: attempts of a task, worker threads, the ratio of a growing
delay. A counter that has reached the greatest number stays there.

* `Count.clamp n` is the counter of `n`, or the greatest one;
* `Count.next` counts one up, and `val_next` says what that does.
-/

namespace DurableQueue

/-- A number of 32 bits. -/
structure Count where
  val : Nat
  le_max : val ≤ Decimal.max32
  deriving DecidableEq, Repr

namespace Count

@[ext] theorem ext {a b : Count} (h : a.val = b.val) : a = b := by
  cases a; cases b; simp_all

/-- The counter of a number, or the greatest counter if the number is too large. -/
def clamp (n : Nat) : Count := ⟨min n Decimal.max32, Nat.min_le_right _ _⟩

/-- The counter of a number, if it has 32 bits. -/
def ofNat? (n : Nat) : Option Count := if h : n ≤ Decimal.max32 then some ⟨n, h⟩ else none

/-- Nothing counted yet. -/
def zero : Count := ⟨0, Nat.zero_le _⟩

/-- One. -/
def one : Count := ⟨1, by decide⟩

instance : Inhabited Count := ⟨zero⟩

/-- Count one up; the greatest counter stays. -/
def next (c : Count) : Count := clamp (c.val + 1)

/-- The decimal digits of a counter. -/
def text (c : Count) : String := String.ofList (Decimal.digits c.val)

@[simp] theorem val_clamp (n : Nat) : (clamp n).val = min n Decimal.max32 := rfl

@[simp] theorem val_zero : zero.val = 0 := rfl

@[simp] theorem val_next (c : Count) : c.next.val = min (c.val + 1) Decimal.max32 := rfl

theorem ofNat?_val (c : Count) : ofNat? c.val = some c := by
  simp [ofNat?, c.le_max]

theorem ofNat?_eq_some_iff {n : Nat} {c : Count} : ofNat? n = some c ↔ c.val = n := by
  constructor
  · intro h
    unfold ofNat? at h
    split at h
    · cases h; rfl
    · cases h
  · rintro rfl
    exact ofNat?_val c

end Count

end DurableQueue
