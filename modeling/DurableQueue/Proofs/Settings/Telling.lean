import DurableQueue.Settings.Cell

/-!
# What an update keeps

An update of a cell is all told to its observers, so that it does to their state what telling does.

* `Cell.set_keeps` is about a property that every observer keeps when it is told a change, and
  `Cell.set_rel` about two states whose observers answer alike;
* `Cell.set_cell` is what becomes of the cell.
-/

namespace DurableQueue.Cell

variable {ω α σ τ : Type}

section Keeps

variable {tell : Tell α ω σ} {Q : σ → Prop}

theorem replay_keeps {old new : α} {os : List ω}
    (htell : ∀ o ∈ os, ∀ old new s, Q s → Q (tell o old new s).2) {s : σ} (h : Q s) :
    Q (replay tell old new os s) := by
  induction os generalizing s with
  | nil => exact h
  | cons o os ih =>
    exact ih (fun o ho => htell o (List.mem_cons_of_mem _ ho))
      (htell o List.mem_cons_self new old s h)

theorem propose_keeps {old new : α} {os accepted : List ω}
    (htell : ∀ o ∈ os ++ accepted, ∀ old new s, Q s → Q (tell o old new s).2) {s : σ} (h : Q s) :
    Q (propose tell old new os accepted s).2 := by
  induction os generalizing accepted s with
  | nil => exact h
  | cons o os ih =>
    have hs := htell o (List.mem_append_left _ List.mem_cons_self) old new s h
    unfold propose
    split
    next t heq =>
      rw [heq] at hs
      refine ih (fun o' ho' => htell o' ?_) hs
      simpa [or_left_comm, or_assoc] using ho'
    next e t heq =>
      -- a refusal is made good with those who have accepted before
      rw [heq] at hs
      exact replay_keeps (fun o' ho' => htell o' (List.mem_append_right _ ho')) hs

/-- What every observer keeps when it is told a change is kept by an update, refused or not. -/
theorem set_keeps [SettingGroup α] (c : Cell α ω) (new : α)
    (htell : ∀ o ∈ c.observers.map (·.2), ∀ old new s, Q s → Q (tell o old new s).2) {s : σ}
    (h : Q s) : Q (c.set tell new s).2.2 := by
  unfold set trySet
  by_cases hsame : (c.value == new) = true
  · rw [if_pos hsame]
    exact h
  · rw [if_neg hsame]
    have hs : Q (propose tell c.value new (c.observers.map (·.2)) [] s).2 :=
      propose_keeps (by simpa using htell) h
    generalize propose tell c.value new (c.observers.map (·.2)) [] s = answer at hs ⊢
    obtain ⟨r, t⟩ := answer
    cases r with
    | ok => exact hs
    | error e => exact hs

end Keeps

section Rel

variable {tell : Tell α ω σ} {tell' : Tell α ω τ} {R : σ → τ → Prop}
  (htell : ∀ o old new s t, R s t →
    (tell o old new s).1 = (tell' o old new t).1 ∧ R (tell o old new s).2 (tell' o old new t).2)

include htell

theorem replay_rel {old new : α} (os : List ω) {s : σ} {t : τ} (h : R s t) :
    R (replay tell old new os s) (replay tell' old new os t) := by
  induction os generalizing s t with
  | nil => exact h
  | cons o os ih => exact ih (htell o new old s t h).2

theorem propose_rel (old new : α) (os accepted : List ω) {s : σ} {t : τ} (h : R s t) :
    (propose tell old new os accepted s).1 = (propose tell' old new os accepted t).1 ∧
      R (propose tell old new os accepted s).2 (propose tell' old new os accepted t).2 := by
  induction os generalizing accepted s t with
  | nil => exact ⟨rfl, h⟩
  | cons o os ih =>
    obtain ⟨hanswer, hstate⟩ := htell o old new s t h
    unfold propose
    generalize tell o old new s = x at hanswer hstate ⊢
    generalize tell' o old new t = y at hanswer hstate ⊢
    obtain ⟨r, s⟩ := x
    obtain ⟨r', t⟩ := y
    obtain rfl : r = r' := hanswer
    cases r with
    | ok => exact ih (o :: accepted) hstate
    | error e => exact ⟨rfl, replay_rel htell accepted hstate⟩

/-- Two states of the observers that answer alike make an update the same. -/
theorem set_rel [SettingGroup α] (c : Cell α ω) (new : α) {s : σ} {t : τ} (h : R s t) :
    (c.set tell new s).1 = (c.set tell' new t).1 ∧
      (c.set tell new s).2.1 = (c.set tell' new t).2.1 ∧
      R (c.set tell new s).2.2 (c.set tell' new t).2.2 := by
  unfold set trySet
  by_cases hsame : (c.value == new) = true
  · rw [if_pos hsame, if_pos hsame]
    exact ⟨rfl, rfl, h⟩
  · rw [if_neg hsame, if_neg hsame]
    obtain ⟨hanswer, hstate⟩ := propose_rel htell c.value new
      (c.observers.map (·.2)) [] h
    generalize propose tell c.value new (c.observers.map (·.2)) [] s = x at hanswer hstate ⊢
    generalize propose tell' c.value new (c.observers.map (·.2)) [] t = y at hanswer hstate ⊢
    obtain ⟨r, s⟩ := x
    obtain ⟨r', t⟩ := y
    obtain rfl : r = r' := hanswer
    cases r with
    | ok => exact ⟨rfl, rfl, hstate⟩
    | error e => exact ⟨rfl, rfl, hstate⟩

end Rel

/-- An update leaves a cell as it is, or gives it the new value and counts the change. -/
theorem set_cell [SettingGroup α] (tell : Tell α ω σ) (c : Cell α ω) (new : α) (s : σ) :
    (c.set tell new s).2.1 = c ∨
      (c.set tell new s).2.1 = { c with value := new, version := c.version + 1 } := by
  unfold set trySet
  by_cases hsame : (c.value == new) = true
  · rw [if_pos hsame]
    exact .inl rfl
  · rw [if_neg hsame]
    cases propose tell c.value new (c.observers.map (·.2)) [] s with
    | mk answer t =>
      cases answer with
      | ok => exact .inr rfl
      | error e => exact .inl rfl

end DurableQueue.Cell
