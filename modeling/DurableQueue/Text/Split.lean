/-!
# Cutting text at separators

* `splitOnce p cs` cuts at the first character that satisfies `p`;
* `pieces c cs` cuts at every occurrence of `c`, so there is always at least one piece;
* `stripPrefix p cs` removes a leading text;
* `join sep parts` puts a separator between texts, and `pieces_join` undoes it when no part
  holds the separator.
-/

namespace DurableQueue.Text

/-- The text in front of the first character that satisfies `p`, and the text after it. -/
def splitOnce (p : Char → Bool) : List Char → Option (List Char × List Char)
  | [] => none
  | c :: cs => if p c then some ([], cs) else (splitOnce p cs).map fun r => (c :: r.1, r.2)

/-- The texts between the occurrences of a separator. -/
def pieces (sep : Char) : List Char → List (List Char)
  | [] => [[]]
  | c :: cs =>
    if c = sep then [] :: pieces sep cs
    else match pieces sep cs with
      | [] => [[c]]
      | p :: ps => (c :: p) :: ps

/-- The text after a leading text, if it leads. -/
def stripPrefix : List Char → List Char → Option (List Char)
  | [], cs => some cs
  | _ :: _, [] => none
  | p :: ps, c :: cs => if p = c then stripPrefix ps cs else none

/-- Put a separator between texts. -/
def join (sep : List Char) : List (List Char) → List Char
  | [] => []
  | [p] => p
  | p :: q :: ps => p ++ sep ++ join sep (q :: ps)

theorem splitOnce_eq_none_iff {p : Char → Bool} {cs : List Char} :
    splitOnce p cs = none ↔ ∀ c ∈ cs, p c = false := by
  induction cs with
  | nil => simp [splitOnce]
  | cons c cs ih => by_cases h : p c <;> simp [splitOnce, h, ih]

/-- A cut keeps every character but the separator, and cuts at the first one. -/
theorem splitOnce_eq_some_iff {p : Char → Bool} {cs a b : List Char} :
    splitOnce p cs = some (a, b) ↔ ∃ c, p c = true ∧ cs = a ++ c :: b ∧ ∀ x ∈ a, p x = false := by
  induction cs generalizing a with
  | nil => simp [splitOnce]
  | cons c cs ih =>
    by_cases h : p c
    · simp only [splitOnce, h, if_true, Option.some.injEq, Prod.mk.injEq]
      constructor
      · rintro ⟨rfl, rfl⟩
        exact ⟨c, h, rfl, by simp⟩
      · rintro ⟨d, hd, hcs, ha⟩
        cases a with
        | nil => simp_all
        | cons x a => simp_all
    · simp only [splitOnce, h, Bool.false_eq_true, if_false, Option.map_eq_some_iff, Prod.exists,
        Prod.mk.injEq]
      constructor
      · rintro ⟨x, y, hxy, rfl, rfl⟩
        obtain ⟨d, hd, rfl, hx⟩ := ih.1 hxy
        exact ⟨d, hd, rfl, by simpa [h] using hx⟩
      · rintro ⟨d, hd, hcs, ha⟩
        cases a with
        | nil => simp_all
        | cons x a =>
          simp only [List.cons_append, List.cons.injEq] at hcs
          obtain ⟨rfl, rfl⟩ := hcs
          exact ⟨a, b, ih.2 ⟨d, hd, rfl, fun y hy => ha y (by simp [hy])⟩, rfl, rfl⟩

theorem pieces_ne_nil (sep : Char) (cs : List Char) : pieces sep cs ≠ [] := by
  cases cs with
  | nil => simp [pieces]
  | cons c cs =>
    simp only [pieces]
    split
    · simp
    · split <;> simp

/-- A text without the separator is one piece. -/
theorem pieces_of_not_mem {sep : Char} {cs : List Char} (h : sep ∉ cs) : pieces sep cs = [cs] := by
  induction cs with
  | nil => rfl
  | cons c cs ih =>
    simp only [List.mem_cons, not_or] at h
    simp [pieces, Ne.symm h.1, ih h.2]

/-- The pieces of two texts with a separator between them are those of the one, then those of
the other. -/
theorem pieces_append (sep : Char) (a b : List Char) :
    pieces sep (a ++ sep :: b) = pieces sep a ++ pieces sep b := by
  induction a with
  | nil => simp [pieces]
  | cons c a ih =>
    simp only [List.cons_append, pieces, ih]
    split
    · simp
    · cases h : pieces sep a with
      | nil => exact absurd h (pieces_ne_nil sep a)
      | cons p ps => simp

/-- Cutting undoes joining. -/
theorem pieces_join {sep : Char} {parts : List (List Char)} (hne : parts ≠ [])
    (h : ∀ p ∈ parts, sep ∉ p) : pieces sep (join [sep] parts) = parts := by
  induction parts with
  | nil => exact absurd rfl hne
  | cons p ps ih =>
    cases ps with
    | nil => exact pieces_of_not_mem (h p (by simp))
    | cons q ps =>
      have hj : join [sep] (p :: q :: ps) = p ++ sep :: join [sep] (q :: ps) := by simp [join]
      rw [hj, pieces_append, pieces_of_not_mem (h p (by simp)),
        ih (by simp) fun r hr => h r (by simp [hr])]
      rfl

/-- What falls apart at a separator, of several texts joined by it, is that of each of them. -/
theorem intercalate_eq_flatMap {β : Type} {separator : String} {sep : Char}
    {f : List Char → List β} (hsep : separator.toList = [sep]) (hnil : f [] = [])
    (happend : ∀ a b, f (a ++ sep :: b) = f a ++ f b) (texts : List String) :
    f (separator.intercalate texts).toList = texts.flatMap fun text => f text.toList := by
  induction texts with
  | nil => simpa using hnil
  | cons text texts ih =>
    by_cases hne : texts = []
    · simp [hne]
    · have hchars : (separator.intercalate (text :: texts)).toList
          = text.toList ++ sep :: (separator.intercalate texts).toList := by
        simp [String.intercalate_cons_of_ne_nil hne, hsep]
      rw [hchars, happend, ih, List.flatMap_cons]

/-- What a prefix leaves, put behind it again, is the text. -/
theorem stripPrefix_eq_some_iff {p cs r : List Char} : stripPrefix p cs = some r ↔ cs = p ++ r := by
  induction p generalizing cs with
  | nil => simp [stripPrefix]
  | cons x p ih =>
    cases cs with
    | nil => simp [stripPrefix]
    | cons c cs =>
      by_cases h : x = c
      · subst h; simp [stripPrefix, ih]
      · have h' : ¬ c = x := fun e => h e.symm
        simp [stripPrefix, h, h']

end DurableQueue.Text
