import DurableQueue.Json.Reader
import DurableQueue.Json.Writer
import DurableQueue.Proofs.Text.Decimal

/-!
# Documents are read back

Reading undoes writing for every value that a document can tell apart from others: whatever is
nested in it, whatever characters its texts and names have, and all integers of 64 bits.

* `Faithful` holds of these values;
* `readText?_writeText` is about texts, character by character;
* `readItems?_writeItems` and `readFields?_writeFields` are about what stands between brackets;
* `readValue?_writeChars` is about a value in front of further text, and `read?_write` about whole
  documents.
-/

namespace DurableQueue.Json

/-! ### Texts -/

/-- A character is written with an escape of one letter, as a code unit, or as it is. -/
theorem writeChar_cases (c : Char) :
    (∃ e, writeChar c = ['\\', e] ∧ escaped? e = some c ∧ e ≠ 'u') ∨
    (writeChar c = ['\\', 'u', '0', '0', hexDigit (c.toNat / 16), hexDigit (c.toNat % 16)] ∧
      c.toNat < 32) ∨
    (writeChar c = [c] ∧ ¬ c.toNat < 32 ∧ c ≠ '"' ∧ c ≠ '\\') := by
  unfold writeChar
  split
  next h => exact .inl ⟨'"', rfl, by rw [h]; rfl, by decide⟩
  next hquote =>
    split
    next h => exact .inl ⟨'\\', rfl, by rw [h]; rfl, by decide⟩
    next hslash =>
      split
      next h => exact .inl ⟨'b', rfl, by rw [h]; rfl, by decide⟩
      split
      next h => exact .inl ⟨'t', rfl, by rw [h]; rfl, by decide⟩
      split
      next h => exact .inl ⟨'n', rfl, by rw [h]; rfl, by decide⟩
      split
      next h => exact .inl ⟨'f', rfl, by rw [h]; rfl, by decide⟩
      split
      next h => exact .inl ⟨'r', rfl, by rw [h]; rfl, by decide⟩
      split
      next hcontrol => exact .inr (.inl ⟨rfl, hcontrol⟩)
      next hplain => exact .inr (.inr ⟨rfl, hplain, hquote, hslash⟩)

theorem readUnits?_escape {e c : Char} (h : escaped? e = some c) (hu : e ≠ 'u') (cs : List Char) :
    readUnits? ('\\' :: e :: cs) = (readUnits? cs).map fun r => (.inl c :: r.1, r.2) := by
  rw [readUnits?]
  · rw [h]
    cases readUnits? cs <;> rfl
  · intro _ _ _ _ _ he
    exact absurd he hu

theorem hexValue?_hexDigit : ∀ n < 16, hexValue? (hexDigit n) = some n := by decide

theorem readUnits?_control {c : Char} (h : c.toNat < 32) (cs : List Char) :
    readUnits?
        ('\\' :: 'u' :: '0' :: '0' :: hexDigit (c.toNat / 16) :: hexDigit (c.toNat % 16) :: cs)
      = (readUnits? cs).map fun r => (.inr c.toNat :: r.1, r.2) := by
  have hzero : hexValue? '0' = some 0 := rfl
  have hcode : ((0 * 16 + 0) * 16 + c.toNat / 16) * 16 + c.toNat % 16 = c.toNat := by omega
  rw [readUnits?, hzero, hexValue?_hexDigit _ (by omega), hexValue?_hexDigit _ (by omega)]
  simp only [Option.bind_eq_bind, Option.bind_some, hcode]
  cases readUnits? cs <;> rfl

theorem readUnits?_plain {c : Char} (h32 : ¬ c.toNat < 32) (hquote : c ≠ '"') (hslash : c ≠ '\\')
    (cs : List Char) :
    readUnits? (c :: cs) = (readUnits? cs).map fun r => (.inl c :: r.1, r.2) := by
  rw [readUnits?]
  · rw [if_neg (by simp [h32, hslash])]
    cases readUnits? cs <;> rfl
  · exact hquote
  · intro _ _ _ _ _ he
    exact absurd he hslash
  · intro _ _ he
    exact absurd he hslash

/-- A character is read back as itself, or as its code unit if it is a control character. -/
theorem readUnits?_writeChar (c : Char) :
    ∃ u : Char ⊕ Nat, (u = .inl c ∨ u = .inr c.toNat ∧ c.toNat < 32) ∧
      ∀ cs, readUnits? (writeChar c ++ cs) = (readUnits? cs).map fun r => (u :: r.1, r.2) := by
  rcases writeChar_cases c with ⟨e, hwrite, he, hu⟩ | ⟨hwrite, h32⟩ | ⟨hwrite, h32, hquote, hslash⟩
  · exact ⟨.inl c, .inl rfl, fun cs => hwrite ▸ readUnits?_escape he hu cs⟩
  · exact ⟨.inr c.toNat, .inr ⟨rfl, h32⟩, fun cs => hwrite ▸ readUnits?_control h32 cs⟩
  · exact ⟨.inl c, .inl rfl, fun cs => hwrite ▸ readUnits?_plain h32 hquote hslash cs⟩

theorem joinUnits?_cons {u : Char ⊕ Nat} {c : Char}
    (h : u = .inl c ∨ u = .inr c.toNat ∧ c.toNat < 32) (us : List (Char ⊕ Nat)) :
    joinUnits? (u :: us) = (joinUnits? us).map (c :: ·) := by
  rcases h with rfl | ⟨rfl, hlt⟩
  · rw [joinUnits?]
  · have hhigh : isHighSurrogate c.toNat = false := by
      simp only [isHighSurrogate, Bool.and_eq_false_iff, decide_eq_false_iff_not]
      omega
    have hlow : isLowSurrogate c.toNat = false := by
      simp only [isLowSurrogate, Bool.and_eq_false_iff, decide_eq_false_iff_not]
      omega
    rcases us with _ | ⟨_ | m, us⟩ <;> simp [joinUnits?, hhigh, hlow, Char.ofNat_toNat]

theorem readUnits?_flatMap (cs rest : List Char) :
    ∃ us, readUnits? (cs.flatMap writeChar ++ '"' :: rest) = some (us, rest) ∧
      joinUnits? us = some cs := by
  induction cs with
  | nil => exact ⟨[], by rw [List.flatMap_nil, List.nil_append, readUnits?], rfl⟩
  | cons c cs ih =>
    obtain ⟨us, hus, hjoin⟩ := ih
    obtain ⟨u, hu, hread⟩ := readUnits?_writeChar c
    refine ⟨u :: us, ?_, ?_⟩
    · rw [List.flatMap_cons, List.append_assoc, hread, hus, Option.map_some]
    · rw [joinUnits?_cons hu, hjoin, Option.map_some]

/-- A written text is read back. -/
theorem readText?_writeText (s : String) (rest : List Char) :
    readText? (s.toList.flatMap writeChar ++ '"' :: rest) = some (some s, rest) := by
  obtain ⟨us, hus, hjoin⟩ := readUnits?_flatMap s.toList rest
  simp only [readText?, hus, Option.map_some, hjoin, String.ofList_toList]

/-! ### Numbers -/

/-- What may follow a value: nothing, a comma or a closing bracket or brace. -/
def Follows (rest : List Char) : Prop :=
  ∀ c, rest.head? = some c → c = ',' ∨ c = ']' ∨ c = '\x7d'

section

variable {rest : List Char}

theorem follows_cons {c : Char} (h : c = ',' ∨ c = ']' ∨ c = '\x7d') (cs : List Char) :
    Follows (c :: cs) := by
  rintro _ ⟨⟩
  exact h

theorem Follows.endsDigits (h : Follows rest) : Decimal.EndsDigits rest := by
  intro c hc
  rcases h c hc with rfl | rfl | rfl <;> rfl

theorem Follows.readDecimals? (h : Follows rest) : readDecimals? rest = some ([], rest) := by
  unfold Json.readDecimals?
  split
  · rcases h '.' rfl with h | h | h <;> exact absurd h (by decide)
  · rfl

theorem Follows.readExponent? (h : Follows rest) : readExponent? rest = some (none, rest) := by
  cases rest with
  | nil => rfl
  | cons c cs =>
    have hc : ¬ (c = 'e' ∨ c = 'E') := by
      rcases h c rfl with rfl | rfl | rfl <;> decide
    exact if_neg hc

/-- Digits in front of something that may follow a value are an integer. -/
theorem readUnsigned?_digits (h : Follows rest) (negative : Bool) (n : Nat) :
    readUnsigned? negative (Decimal.digits n ++ rest) = some (integerLiteral negative n, rest) := by
  have hdigits := Decimal.all_isDigit_digits n
  have hwhole : ¬ (Decimal.digits n = [] ∨
      (Decimal.digits n).length > 1 ∧ (Decimal.digits n).head? = some '0') :=
    not_or.2 ⟨Decimal.digits_ne_nil n, Decimal.not_leading_zero n⟩
  rw [readUnsigned?, Decimal.takeWhile_isDigit hdigits h.endsDigits,
    Decimal.dropWhile_isDigit hdigits h.endsDigits, if_neg hwhole, h.readDecimals?]
  simp only [Option.bind_eq_bind, Option.bind_some, h.readExponent?, Decimal.number_digits]

end

/-! ### Values -/

/-- The values that a document can tell apart from others: the integers in them have 64 bits, and no
part of them is flawed or a number of another kind. -/
inductive Faithful : Json → Prop
  | null : Faithful .null
  | bool (b : Bool) : Faithful (.bool b)
  | integer {n : Int} (least : leastInteger ≤ n) (greatest : n ≤ greatestInteger) :
      Faithful (.integer n)
  | text (s : String) : Faithful (.text s)
  | array {items : List Json} (h : ∀ j ∈ items, Faithful j) : Faithful (.array items)
  | object {fields : List (String × Json)} (h : ∀ e ∈ fields, Faithful e.2) :
      Faithful (.object fields)

/-- A value is read back in front of what may follow it. -/
def ReadsBack (j : Json) : Prop :=
  ∀ fuel rest, 2 * (writeChars j).length ≤ fuel → Follows rest →
    readValue? fuel (writeChars j ++ rest) = some (j, rest)

theorem skipBlanks_cons {c : Char} (h : c ≠ ' ' ∧ c ≠ '\n' ∧ c ≠ '\t' ∧ c ≠ '\r') (cs : List Char) :
    skipBlanks (c :: cs) = c :: cs := by
  obtain ⟨hspace, hline, htab, hreturn⟩ := h
  exact List.dropWhile_cons_of_neg (by simp [hspace, hline, htab, hreturn])

/-- How a written value begins: not with a blank, and not with a closing bracket. -/
theorem exists_writeChars_eq_cons (j : Json) : ∃ c cs, writeChars j = c :: cs ∧
    (c ≠ ' ' ∧ c ≠ '\n' ∧ c ≠ '\t' ∧ c ≠ '\r') ∧ c ≠ ']' := by
  cases j with
  | integer n =>
    cases n with
    | ofNat n =>
      obtain ⟨c, cs, hcs⟩ := List.exists_cons_of_ne_nil (Decimal.digits_ne_nil n)
      have hc : c.isDigit = true := Decimal.isDigit_of_mem_digits (hcs ▸ List.mem_cons_self)
      refine ⟨c, cs, hcs, ⟨?_, ?_, ?_, ?_⟩, ?_⟩
      all_goals
        rintro rfl
        exact absurd hc (by decide)
    | negSucc n => exact ⟨'-', _, rfl, by decide, by decide⟩
  | bool b => cases b <;> exact ⟨_, _, rfl, by decide, by decide⟩
  | _ => exact ⟨_, _, rfl, by decide, by decide⟩

theorem skipBlanks_writeChars (j : Json) (rest : List Char) :
    skipBlanks (writeChars j ++ rest) = writeChars j ++ rest := by
  obtain ⟨c, cs, hcs, hc, -⟩ := exists_writeChars_eq_cons j
  rw [hcs, List.cons_append, skipBlanks_cons hc]

theorem writeItems_cons_cons (j k : Json) (js : List Json) :
    writeItems (j :: k :: js) = writeChars j ++ ',' :: writeItems (k :: js) := by
  rw [writeItems]

/-- One item or more are read back up to the closing bracket. -/
theorem readItems?_writeItems {items : List Json} (hne : items ≠ [])
    (h : ∀ j ∈ items, ReadsBack j) (fuel : Nat) (rest : List Char)
    (hfuel : 2 * (writeItems items).length + 1 ≤ fuel) :
    readItems? fuel (writeItems items ++ ']' :: rest) = some (items, rest) := by
  induction items generalizing fuel with
  | nil => exact absurd rfl hne
  | cons j js ih =>
    obtain ⟨fuel, rfl⟩ : ∃ f, fuel = f + 1 := ⟨fuel - 1, by omega⟩
    cases js with
    | nil =>
      rw [writeItems] at hfuel ⊢
      have hj := h j List.mem_cons_self fuel (']' :: rest) (by omega) (follows_cons (by decide) _)
      rw [readItems?, hj]
      rfl
    | cons k js =>
      rw [writeItems_cons_cons, List.length_append, List.length_cons] at hfuel
      rw [writeItems_cons_cons, List.append_assoc, List.cons_append]
      have hj := h j List.mem_cons_self fuel (',' :: (writeItems (k :: js) ++ ']' :: rest))
        (by omega) (follows_cons (by decide) _)
      have hjs := ih (by simp) (fun i hi => h i (List.mem_cons_of_mem j hi)) fuel (by omega)
      rw [readItems?, hj]
      simp only [Option.bind_eq_bind, Option.bind_some, skipBlanks_cons (c := ',') (by decide), hjs]

theorem writeText_append (s : String) (rest : List Char) :
    writeText s ++ rest = '"' :: (s.toList.flatMap writeChar ++ '"' :: rest) := by
  simp [writeText]

/-- One field or more are read back up to the closing brace. -/
theorem readFields?_writeFields {fields : List (String × Json)} (hne : fields ≠ [])
    (h : ∀ e ∈ fields, ReadsBack e.2) (fuel : Nat) (rest : List Char)
    (hfuel : 2 * (writeFields fields).length + 1 ≤ fuel) :
    readFields? fuel (writeFields fields ++ '\x7d' :: rest) = some (some fields, rest) := by
  induction fields generalizing fuel with
  | nil => exact absurd rfl hne
  | cons e es ih =>
    obtain ⟨name, j⟩ := e
    obtain ⟨fuel, rfl⟩ : ∃ f, fuel = f + 1 := ⟨fuel - 1, by omega⟩
    have hquote := skipBlanks_cons (c := '"') (by decide)
    have hcolon := skipBlanks_cons (c := ':') (by decide)
    cases es with
    | nil =>
      rw [writeFields, List.length_append, List.length_cons] at hfuel
      rw [writeFields, List.append_assoc, List.cons_append, writeText_append]
      have hj := h _ List.mem_cons_self fuel ('\x7d' :: rest) (by dsimp only; omega)
        (follows_cons (by decide) _)
      rw [readFields?]
      simp only [hquote, readText?_writeText, Option.bind_eq_bind, Option.bind_some, hcolon, hj,
        skipBlanks_cons (c := '\x7d') (by decide), Option.map_some]
    | cons f fs =>
      rw [writeFields, List.length_append, List.length_append, List.length_cons,
        List.length_cons] at hfuel
      rw [writeFields, List.append_assoc, List.append_assoc, List.cons_append, List.cons_append,
        writeText_append]
      have hj := h _ List.mem_cons_self fuel (',' :: (writeFields (f :: fs) ++ '\x7d' :: rest))
        (by dsimp only; omega) (follows_cons (by decide) _)
      have hes := ih (by simp) (fun i hi => h i (List.mem_cons_of_mem _ hi)) fuel (by omega)
      rw [readFields?]
      simp only [hquote, readText?_writeText, Option.bind_eq_bind, Option.bind_some, hcolon, hj,
        skipBlanks_cons (c := ',') (by decide), hes, Option.map_some]

/-- Digits in front of what may follow a value are read as a number. -/
theorem readValue?_digits {rest : List Char} (h : Follows rest) (fuel n : Nat) :
    readValue? (fuel + 1) (Decimal.digits n ++ rest) = some (integerLiteral false n, rest) := by
  have hblanks : skipBlanks (Decimal.digits n ++ rest) = Decimal.digits n ++ rest :=
    skipBlanks_writeChars (.integer n) rest
  obtain ⟨c, cs, hcs⟩ := List.exists_cons_of_ne_nil (Decimal.digits_ne_nil n)
  have hc : c.isDigit = true := Decimal.isDigit_of_mem_digits (hcs ▸ List.mem_cons_self)
  rw [readValue?, hblanks, ← readUnsigned?_digits h, hcs, List.cons_append]
  -- a digit is none of the characters that other values begin with
  split <;> first | rfl | simp_all

theorem integerLiteral_eq (negative : Bool) (n : Nat) {v : Int}
    (hv : (if negative then -(n : Int) else n) = v) (hzero : ¬ (negative ∧ n = 0))
    (least : leastInteger ≤ v) (greatest : v ≤ greatestInteger) :
    integerLiteral negative n = .integer v := by
  subst hv
  refine if_neg ?_
  rintro (h | h | h)
  · exact hzero h
  · omega
  · omega

/-- A value is read back if it is so with some fuel, which its text always leaves. -/
theorem ReadsBack.of_succ {j : Json}
    (h : ∀ fuel rest, 2 * (writeChars j).length ≤ fuel + 1 → Follows rest →
      readValue? (fuel + 1) (writeChars j ++ rest) = some (j, rest)) : ReadsBack j := by
  intro fuel rest hfuel hrest
  obtain ⟨c, cs, hcs, -⟩ := exists_writeChars_eq_cons j
  have hpos : 0 < (writeChars j).length := by rw [hcs]; exact Nat.succ_pos _
  obtain ⟨fuel, rfl⟩ : ∃ f, fuel = f + 1 := ⟨fuel - 1, by omega⟩
  exact h fuel rest hfuel hrest

theorem readsBack_array {items : List Json} (h : ∀ j ∈ items, ReadsBack j) :
    ReadsBack (.array items) := by
  refine .of_succ fun fuel rest hfuel hrest => ?_
  cases items with
  | nil => rfl
  | cons j js =>
    rw [writeChars, List.length_append, List.length_cons] at hfuel
    have hitems := readItems?_writeItems (by simp) h fuel rest (by omega)
    obtain ⟨c, cs, hcs, hblank, hclose⟩ : ∃ c cs, writeItems (j :: js) = c :: cs ∧
        (c ≠ ' ' ∧ c ≠ '\n' ∧ c ≠ '\t' ∧ c ≠ '\r') ∧ c ≠ ']' := by
      obtain ⟨c, cs, hcs, hc⟩ := exists_writeChars_eq_cons j
      cases js with
      | nil => exact ⟨c, cs, by rw [writeItems, hcs], hc⟩
      | cons k js => exact ⟨c, _, by rw [writeItems, hcs, List.cons_append], hc⟩
    rw [hcs, List.cons_append] at hitems
    rw [writeChars, List.append_assoc, hcs]
    simp only [List.cons_append, List.nil_append, readValue?,
      skipBlanks_cons (c := '[') (by decide), skipBlanks_cons hblank]
    split
    next hnil => exact absurd (List.cons.inj hnil).1 hclose
    · rw [hitems, Option.map_some]

theorem readsBack_object {fields : List (String × Json)} (h : ∀ e ∈ fields, ReadsBack e.2) :
    ReadsBack (.object fields) := by
  refine .of_succ fun fuel rest hfuel hrest => ?_
  cases fields with
  | nil => rfl
  | cons e es =>
    rw [writeChars, List.length_append, List.length_cons] at hfuel
    have hfields := readFields?_writeFields (by simp) h fuel rest (by omega)
    obtain ⟨cs, hcs⟩ : ∃ cs, writeFields (e :: es) = '"' :: cs := by
      cases es <;> exact ⟨_, rfl⟩
    rw [hcs, List.cons_append] at hfields
    rw [writeChars, List.append_assoc, hcs]
    simp only [List.cons_append, List.nil_append, readValue?,
      skipBlanks_cons (c := '\x7b') (by decide), skipBlanks_cons (c := '"') (by decide)]
    split
    next hclose => exact absurd (List.cons.inj hclose).1 (by decide)
    · rw [hfields, Option.map_some, Option.elim_some]

/-- **A faithful value is read back** in front of what may follow a value. -/
theorem readsBack_of_faithful {j : Json} (h : Faithful j) : ReadsBack j := by
  induction h with
  | null => exact .of_succ fun _ _ _ _ => rfl
  | bool b => cases b <;> exact .of_succ fun _ _ _ _ => rfl
  | @integer n least greatest =>
    refine .of_succ fun fuel rest _ hrest => ?_
    cases n with
    | ofNat n =>
      have hliteral := integerLiteral_eq false n rfl (by simp) least greatest
      rw [writeChars, Decimal.signed, readValue?_digits hrest]
      exact congrArg (fun j => some (j, rest)) hliteral
    | negSucc n =>
      have hliteral := integerLiteral_eq true (n + 1) rfl (by simp) least greatest
      rw [writeChars, Decimal.signed, List.cons_append, readValue?,
        skipBlanks_cons (c := '-') (by decide)]
      exact (readUnsigned?_digits hrest true (n + 1)).trans
        (congrArg (fun j => some (j, rest)) hliteral)
  | text s =>
    refine .of_succ fun fuel rest _ _ => ?_
    rw [writeChars, writeText_append, readValue?, skipBlanks_cons (c := '"') (by decide)]
    simp only [readText?_writeText, Option.map_some, Option.elim_some]
  | array _ ih => exact readsBack_array ih
  | object _ ih => exact readsBack_object ih

/-- **A faithful document is read back.** -/
theorem read?_write {j : Json} (h : Faithful j) : read? j.write = some j := by
  have hread := readsBack_of_faithful h (2 * (writeChars j).length + 1) [] (Nat.le_succ _) nofun
  rw [List.append_nil] at hread
  rw [read?, write, String.toList_ofList]
  simp only [hread]
  rfl

end DurableQueue.Json
