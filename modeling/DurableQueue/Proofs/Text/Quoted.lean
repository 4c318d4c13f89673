import DurableQueue.Text.Quoted
import Mathlib.Data.List.Chain
import Mathlib.Data.List.Pairwise

/-!
# Quoted texts in other texts

Where a quoted text begins that stands at the end of another text, whatever stands before it.

* `NoBareQuote` says that each quote has a backslash in front of it, and
  `noBareQuote_flatMap_quotedChar` that it is so inside quotes;
* `shownText` shows a text that may be absent, and `append_shownText_inj` says that its place at the
  end of a text is the only one.
-/

namespace DurableQueue.Text

/-! ### Quotes inside quotes -/

theorem digitChar_ne_quote (n : Nat) : n.digitChar ≠ '"' := by
  grind [Nat.digitChar]

theorem quote_notMem_toDigits (n : Nat) : '"' ∉ Nat.toDigits 16 n := by
  induction n using Nat.strongRecOn with
  | ind n ih =>
    rw [Nat.toDigits_eq_if (by decide)]
    split
    · simp [(digitChar_ne_quote n).symm]
    · have hless : n / 16 < n := by omega
      simp [ih (n / 16) hless, (digitChar_ne_quote (n % 16)).symm]

/-- Each quote but one at the beginning has a backslash in front of it. -/
def NoBareQuote (cs : List Char) : Prop := cs.IsChain fun a b => b = '"' → a = '\\'

theorem noBareQuote_of_notMem {cs : List Char} (h : '"' ∉ cs) : NoBareQuote cs := by
  refine List.Pairwise.isChain (List.pairwise_of_forall_mem_list fun a _ b hb hquote => ?_)
  exact absurd (hquote ▸ hb) h

theorem noBareQuote_quotedChar (c : Char) :
    NoBareQuote (quotedChar c) ∧ (quotedChar c).head? ≠ some '"' := by
  fun_cases quotedChar c with
  | case7 =>
    refine ⟨noBareQuote_of_notMem ?_, by simp⟩
    simp [quote_notMem_toDigits]
  | case8 _ _ _ _ hquote =>
    exact ⟨noBareQuote_of_notMem (by simpa using Ne.symm hquote), by simpa using hquote⟩
  | _ => simp [NoBareQuote]

/-- Inside quotes each quote has a backslash in front of it. -/
theorem noBareQuote_flatMap_quotedChar (cs : List Char) :
    NoBareQuote (cs.flatMap quotedChar) ∧ (cs.flatMap quotedChar).head? ≠ some '"' := by
  induction cs with
  | nil => exact ⟨.nil, nofun⟩
  | cons c cs ih =>
    obtain ⟨hchain, hhead⟩ := noBareQuote_quotedChar c
    rw [List.flatMap_cons]
    refine ⟨List.isChain_append.2 ⟨hchain, ih.1, ?_⟩, ?_⟩
    · rintro x - y hy rfl
      exact absurd hy ih.2
    · rw [List.head?_append]
      cases hfirst : (quotedChar c).head? with
      | none => exact ih.2
      | some x => simpa [hfirst] using hhead

/-! ### Shown texts -/

/-- A text that may be absent. -/
def shownText : Option String → List Char
  | none => "None".toList
  | some s => (quoted s).toList

theorem shownText_some (s : String) :
    shownText (some s) = '"' :: s.toList.flatMap quotedChar ++ ['"'] :=
  String.toList_ofList

theorem getLast?_shownText (o : Option String) :
    (shownText o).getLast? = some (if o.isSome then '"' else 'e') := by
  cases o with
  | none => rfl
  | some s => rw [shownText_some, List.getLast?_concat]; rfl

/-- A shown text is not the end of another one, unless behind a quote or a backslash. -/
theorem shownText_ne_append {c : Char} (hquote : c ≠ '"') (hbackslash : c ≠ '\\')
    (o p : Option String) (front : List Char) : shownText o ≠ front ++ c :: shownText p := by
  intro h
  have hlast : (shownText o).getLast? = (shownText p).getLast? := by
    rw [h, List.getLast?_append, List.getLast?_cons, getLast?_shownText]
    rfl
  rw [getLast?_shownText, getLast?_shownText, Option.some.injEq] at hlast
  cases o with
  | none =>
    cases p with
    | none => simpa [shownText] using congrArg List.length h
    | some s => exact absurd hlast (by simp)
  | some t =>
    cases p with
    | none => exact absurd hlast (by simp)
    | some s =>
      rw [shownText_some, shownText_some] at h
      cases front with
      | nil => exact hquote (List.cons.inj h).1.symm
      | cons x front =>
        -- the quote in front of the shorter text would stand inside the longer one
        have hinside : t.toList.flatMap quotedChar ++ ['"']
            = (front ++ c :: '"' :: s.toList.flatMap quotedChar) ++ ['"'] := by
          rw [List.append_assoc]
          exact (List.cons.inj h).2
        have hchain := (noBareQuote_flatMap_quotedChar t.toList).1
        rw [List.append_cancel_right hinside] at hchain
        exact hbackslash ((List.isChain_append_cons_cons.1 hchain).2.1 rfl)

/-- A shown text at the end of another text begins behind the last sign that is no part of it. -/
theorem append_shownText_inj {c : Char} (hquote : c ≠ '"') (hbackslash : c ≠ '\\')
    {a b : List Char} {o p : Option String}
    (h : a ++ c :: shownText o = b ++ c :: shownText p) : a = b := by
  rcases List.append_eq_append_iff.1 h with ⟨rest, hb, hrest⟩ | ⟨rest, ha, hrest⟩
  · cases rest with
    | nil => rw [hb, List.append_nil]
    | cons x rest =>
      exact absurd (List.cons.inj hrest).2 (shownText_ne_append hquote hbackslash o p rest)
  · cases rest with
    | nil => rw [ha, List.append_nil]
    | cons x rest =>
      exact absurd (List.cons.inj hrest).2 (shownText_ne_append hquote hbackslash p o rest)

end DurableQueue.Text
