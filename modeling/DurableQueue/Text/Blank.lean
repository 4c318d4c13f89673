/-!
# Blank characters

The characters with the Unicode property `White_Space`, and trimming by them.

* `isBlank` holds of exactly the characters of `blanks`;
* `trim` removes them from both ends of a text;
* `trim_eq_self`: a text without a blank at either end is left alone.
-/

namespace DurableQueue.Text

/-- The code points with the property `White_Space`, as ranges. -/
def blanks : List (Nat × Nat) :=
  [(0x09, 0x0D), (0x20, 0x20), (0x85, 0x85), (0xA0, 0xA0), (0x1680, 0x1680), (0x2000, 0x200A),
   (0x2028, 0x2029), (0x202F, 0x202F), (0x205F, 0x205F), (0x3000, 0x3000)]

/-- A code point lies in one of the ranges. -/
def inRanges (ranges : List (Nat × Nat)) (n : Nat) : Bool :=
  ranges.any fun r => r.1 ≤ n && n ≤ r.2

/-- A character that counts as white space. -/
def isBlank (c : Char) : Bool := inRanges blanks c.toNat

theorem isBlank_of_isDigit {c : Char} (h : c.isDigit = true) : isBlank c = false := by
  obtain ⟨hlow, hhigh⟩ := Char.isDigit_iff_toNat.1 h
  have h0 : '0'.toNat = 48 := rfl
  have h9 : '9'.toNat = 57 := rfl
  simp only [isBlank, inRanges, blanks, List.any_cons, List.any_nil, Bool.or_false,
    Bool.or_eq_false_iff, Bool.and_eq_false_iff, decide_eq_false_iff_not]
  omega

/-- Remove blanks in front. -/
def trimStart (cs : List Char) : List Char := cs.dropWhile isBlank

/-- Remove blanks at the end. -/
def trimEnd (cs : List Char) : List Char := (cs.reverse.dropWhile isBlank).reverse

/-- Remove blanks at both ends. -/
def trim (cs : List Char) : List Char := trimEnd (trimStart cs)

@[simp] theorem trim_nil : trim [] = [] := rfl

theorem trimStart_cons_of_not_blank {c : Char} {cs : List Char} (h : isBlank c = false) :
    trimStart (c :: cs) = c :: cs := by
  simp [trimStart, h]

theorem trimEnd_append_of_not_blank {c : Char} {cs : List Char} (h : isBlank c = false) :
    trimEnd (cs ++ [c]) = cs ++ [c] := by
  simp [trimEnd, h]

/-- A text whose first and last characters are no blanks is left alone. -/
theorem trim_eq_self {cs : List Char} (hf : ∀ c, cs.head? = some c → isBlank c = false)
    (hl : ∀ c, cs.getLast? = some c → isBlank c = false) : trim cs = cs := by
  cases cs with
  | nil => rfl
  | cons c cs =>
    have hs : trimStart (c :: cs) = c :: cs := trimStart_cons_of_not_blank (hf c rfl)
    rw [trim, hs]
    rcases List.eq_nil_or_concat (c :: cs) with h | ⟨ds, d, h⟩
    · exact absurd h (List.cons_ne_nil c cs)
    · rw [List.concat_eq_append] at h
      have hd : isBlank d = false := hl d (by rw [h]; exact List.getLast?_concat)
      rw [h, trimEnd_append_of_not_blank hd]

end DurableQueue.Text
