import Mathlib.Data.List.DropRight
import DurableQueue.Proofs.Time.Reading

/-!
# Lists of duration literals

A comma separates the literals of a list, and a comma may also be the decimal mark inside a literal.
A list is cut at every comma, so a literal with a decimal comma does not come through.

* `Form.commasFollowDigits` and `Form.isAlpha_of_getLast?`: in a literal a comma stands behind a
  digit, but every literal ends with a letter;
* `refused_front`: so what stands in front of the comma is no literal;
* `joined_literals_are_read_iff` is the main statement: literals joined with commas are read one by
  one if none of them has a comma, and otherwise the front of the first one that has is reported.
-/

namespace DurableQueue

/-! ### Trimming -/

namespace Text

variable {c : Char}

theorem trimStart_append_cons (h : isBlank c = false) (a b : List Char) :
    trimStart (a ++ c :: b) = trimStart a ++ c :: b := by
  rw [trimStart, trimStart, List.dropWhile_append, List.dropWhile_cons_of_neg (by simp [h])]
  split
  next hnil => rw [List.isEmpty_iff.1 hnil, List.nil_append]
  next => rfl

theorem trimEnd_eq_reverse (cs : List Char) : trimEnd cs = (trimStart cs.reverse).reverse := rfl

theorem trimEnd_append_cons (h : isBlank c = false) (a b : List Char) :
    trimEnd (a ++ c :: b) = a ++ c :: trimEnd b := by
  have hreverse : (a ++ c :: b).reverse = b.reverse ++ c :: a.reverse := by simp
  rw [trimEnd_eq_reverse, hreverse, trimStart_append_cons h, trimEnd_eq_reverse]
  simp

/-- In front of a character that is no blank and behind it, only the outer side is trimmed. -/
theorem trim_append_cons (h : isBlank c = false) (a b : List Char) :
    trim (a ++ c :: b) = trimStart a ++ c :: trimEnd b := by
  rw [trim, trimStart_append_cons h, trimEnd_append_cons h]

theorem not_blank_of_head?_trimStart {cs : List Char} (h : (trimStart cs).head? = some c) :
    isBlank c = false := by
  have := List.head?_dropWhile_not isBlank cs
  rwa [← trimStart, h] at this

theorem trim_trim (cs : List Char) : trim (trim cs) = trim cs := by
  refine trim_eq_self (fun c hc => ?_) (fun c hc => ?_)
  · obtain ⟨rest, hrest⟩ : trim cs <+: trimStart cs := List.rdropWhile_prefix _ _
    have hhead : (trimStart cs).head? = some c := by
      rw [← hrest, List.head?_append, hc, Option.some_or]
    exact not_blank_of_head?_trimStart hhead
  · rw [trim, trimEnd_eq_reverse, List.getLast?_reverse] at hc
    exact not_blank_of_head?_trimStart hc

end Text

namespace Literal

open Text (isBlank isBlank_of_isDigit trim trimStart trimEnd trim_append_cons trim_trim
  trimEnd_append_of_not_blank pieces pieces_append pieces_of_not_mem)

/-! ### Commas inside a literal -/

/-- Every comma of a text stands behind a digit. -/
def CommasFollowDigits (cs : List Char) : Prop :=
  ∀ a b, cs = a ++ ',' :: b → ∃ c, a.getLast? = some c ∧ c.isDigit = true

namespace CommasFollowDigits

theorem of_notMem {cs : List Char} (h : ',' ∉ cs) : CommasFollowDigits cs := by
  rintro a b rfl
  simp at h

theorem append {l r : List Char} (hl : CommasFollowDigits l) (hr : CommasFollowDigits r) :
    CommasFollowDigits (l ++ r) := by
  intro a b h
  rcases List.append_eq_append_iff.1 h with ⟨front, rfl, hfront⟩ | ⟨back, rfl, hback⟩
  · obtain ⟨c, hc, hdigit⟩ := hr front b hfront
    exact ⟨c, List.mem_getLast?_append_of_mem_getLast? hc, hdigit⟩
  · cases back with
    | nil =>
      -- the comma would be the first character of the text on the right
      obtain ⟨c, hc, -⟩ := hr [] b hback.symm
      cases hc
    | cons x back =>
      obtain ⟨rfl, -⟩ := List.cons.inj hback
      exact hl a back rfl

theorem cons {c : Char} {cs : List Char} (hc : c ≠ ',') (h : CommasFollowDigits cs) :
    CommasFollowDigits (c :: cs) :=
  append (of_notMem fun hmem => hc (List.mem_singleton.1 hmem).symm) h

end CommasFollowDigits

theorem ne_comma_of_isAlpha {c : Char} (h : c.isAlpha = true) : c ≠ ',' := by
  rintro rfl
  cases h

theorem Digits.comma_notMem (n : Digits) : ',' ∉ n.chars := fun h => nomatch n.isDigit h

/-- The comma of an amount is the mark of its decimals. -/
theorem Amount.commasFollowDigits {u : TimeUnit} (x : Amount u) : CommasFollowDigits x.chars := by
  unfold Amount.chars
  cases x.decimals with
  | none =>
    rw [Option.elim_none, List.append_nil]
    exact .of_notMem x.whole.comma_notMem
  | some f =>
    intro a b h
    rw [Option.elim_some, Decimals.chars,
      List.append_cons_inj_of_notMem x.whole.comma_notMem f.digits.comma_notMem] at h
    obtain ⟨rfl, -⟩ := h
    exact ⟨_, List.getLast?_eq_some_getLast x.whole.ne_nil, x.whole.isDigit (List.getLast_mem _)⟩

theorem Amounts.commasFollowDigits (t : Amounts) (us : List TimeUnit) :
    CommasFollowDigits (t.chars us) := by
  induction us with
  | nil => exact .of_notMem List.not_mem_nil
  | cons u us ih =>
    cases ht : t u with
    | none => rwa [Amounts.chars_cons_of_none ht]
    | some x =>
      rw [Amounts.chars_cons_of_some ht]
      exact x.commasFollowDigits.append (ih.cons (ne_comma_of_isAlpha u.isAlpha_letter))

theorem comma_notMem_daysChars (days : Option Digits) : ',' ∉ daysChars days := by
  cases days with
  | none => exact List.not_mem_nil
  | some n =>
    rw [daysChars, Option.elim_some, List.mem_append, not_or]
    exact ⟨n.comma_notMem, by decide⟩

theorem Form.commasFollowDigits (f : Form) : CommasFollowDigits f.chars := by
  refine .cons (by decide) (.append (.of_notMem (comma_notMem_daysChars _)) ?_)
  cases f.clock with
  | none => exact .of_notMem List.not_mem_nil
  | some t => exact .cons (by decide) (t.amount.commasFollowDigits _)

/-! ### The end of a literal -/

theorem Amounts.isAlpha_of_getLast? {t : Amounts} {us : List TimeUnit} {c : Char}
    (h : (t.chars us).getLast? = some c) : c.isAlpha = true := by
  induction us with
  | nil => cases h
  | cons u us ih =>
    cases ht : t u with
    | none => exact ih (Amounts.chars_cons_of_none ht ▸ h)
    | some x =>
      have hne : u.letter :: t.chars us ≠ [] := List.cons_ne_nil _ _
      rw [Amounts.chars_cons_of_some ht, List.getLast?_append_of_ne_nil _ hne] at h
      cases hrest : t.chars us with
      | nil =>
        rw [hrest, List.getLast?_singleton, Option.some.injEq] at h
        exact h ▸ u.isAlpha_letter
      | cons y ys =>
        rw [hrest, List.getLast?_cons_cons, ← hrest] at h
        exact ih h

/-- A literal ends with the letter of its last part. -/
theorem Form.isAlpha_of_getLast? {f : Form} {c : Char} (h : f.chars.getLast? = some c) :
    c.isAlpha = true := by
  unfold Form.chars at h
  cases hclock : f.clock with
  | none =>
    obtain ⟨n, hn⟩ := Option.isSome_iff_exists.1 (f.some_part.resolve_right (by simp [hclock]))
    have hlast : ('P' :: (n.chars ++ ['D'])).getLast? = some 'D' :=
      List.getLast?_concat (l := 'P' :: n.chars)
    rw [hclock, hn, daysChars, Option.elim_some, Option.elim_none, List.append_nil, hlast] at h
    cases h
    rfl
  | some t =>
    have hlast : ('P' :: (daysChars f.days ++ 'T' :: t.chars)).getLast? = t.chars.getLast? := by
      have hne := t.chars_ne_nil
      rw [← List.cons_append, List.append_cons, List.getLast?_append_of_ne_nil _ hne]
    rw [hclock, Option.elim_some, hlast] at h
    exact Amounts.isAlpha_of_getLast? h

/-! ### Readable texts -/

theorem parse_eq_ok_iff {s : String} {d : Delay} : parse s = .ok d ↔
    ∃ f : Form, f.Spells s ∧ d.nanos = f.seconds * nanosPerSecond + f.fraction := by
  refine Iff.trans ?_ delay?_eq_some_iff
  unfold parse
  cases delay? ((trim s.toList).map Char.toUpper) <;> simp

theorem parse_eq_error {s : String} (h : ∀ f : Form, ¬ f.Spells s) : parse s = .error ⟨s⟩ := by
  cases hs : delay? ((trim s.toList).map Char.toUpper) with
  | none => rw [parse, hs]
  | some d =>
    obtain ⟨f, hf, -⟩ := delay?_eq_some_iff.1 hs
    exact absurd hf (h f)

theorem Form.spells_trim {f : Form} {cs : List Char} :
    f.Spells (String.ofList (trim cs)) ↔ f.Spells (String.ofList cs) := by
  rw [Form.Spells, Form.Spells, String.toList_ofList, String.toList_ofList, trim_trim]

theorem parse_trim {s : String} {d : Delay} (h : parse s = .ok d) :
    parse (String.ofList (trim s.toList)) = .ok d := by
  simpa only [parse_eq_ok_iff, Form.spells_trim, String.ofList_toList] using h

theorem trim_ne_nil_of_parse {s : String} {d : Delay} (h : parse s = .ok d) :
    trim s.toList ≠ [] := by
  obtain ⟨f, hf, -⟩ := parse_eq_ok_iff.1 h
  intro hnil
  rw [Form.Spells, hnil] at hf
  cases hf

/-- A letter does not become a digit when it is written as a capital. -/
theorem isDigit_of_isDigit_toUpper {c : Char} (h : c.toUpper.isDigit = true) :
    c.isDigit = true := by
  unfold Char.toUpper at h
  split at h
  next hlower =>
    have hlow : 97 ≤ c.val.toNat := UInt32.le_iff_toNat_le.1 hlower.1
    have hhigh : c.val.toNat ≤ 122 := UInt32.le_iff_toNat_le.1 hlower.2
    have hupper : (c.val + ('A'.val - 'a'.val)).toNat = c.val.toNat - 32 := by
      rw [UInt32.toNat_add, show ('A'.val - 'a'.val).toNat = 2 ^ 32 - 32 from rfl]
      omega
    have hdigit : (c.val + ('A'.val - 'a'.val)).toNat ≤ 57 := (Char.isDigit_iff_toNat.1 h).2
    omega
  next => exact h

/-- What stands in front of the comma of a literal is no literal. -/
theorem refused_front {s : String} {d : Delay} {front rest : List Char} (h : parse s = .ok d)
    (hs : s.toList = front ++ ',' :: rest) : trim front ≠ [] ∧
      parse (String.ofList (trim front)) = .error ⟨String.ofList (trim front)⟩ := by
  obtain ⟨f, hf, -⟩ := parse_eq_ok_iff.1 h
  rw [Form.Spells, hs, trim_append_cons (by decide), List.map_append] at hf
  obtain ⟨c, hc, hdigit⟩ := f.commasFollowDigits _ _ hf
  obtain ⟨x, hx, rfl⟩ := Option.map_eq_some_iff.1 (List.getLast?_map .. ▸ hc)
  obtain ⟨cs, hcs⟩ := List.getLast?_eq_some_iff.1 hx
  have hblank : isBlank x = false := isBlank_of_isDigit (isDigit_of_isDigit_toUpper hdigit)
  have htrim : trim front = trimStart front := by
    rw [trim, hcs, trimEnd_append_of_not_blank hblank]
  refine ⟨by simp [htrim, hcs], parse_eq_error fun g hg => ?_⟩
  rw [Form.Spells, String.toList_ofList, trim_trim, htrim] at hg
  have halpha := g.isAlpha_of_getLast? (hg ▸ hc)
  rw [not_isAlpha_of_isDigit hdigit] at halpha
  cases halpha

/-! ### Lists -/

theorem listParts_append (a b : List Char) : listParts (String.ofList (a ++ ',' :: b)) =
    listParts (String.ofList a) ++ listParts (String.ofList b) := by
  simp [listParts, pieces_append]

theorem listParts_intercalate (texts : List String) :
    listParts (",".intercalate texts) = texts.flatMap listParts := by
  simpa only [String.ofList_toList] using Text.intercalate_eq_flatMap
    (f := fun cs => listParts (String.ofList cs)) rfl rfl listParts_append texts

theorem listParts_of_notMem {s : String} (h : ',' ∉ s.toList) (hne : trim s.toList ≠ []) :
    listParts s = [String.ofList (trim s.toList)] := by
  simp [listParts, pieces_of_not_mem h, hne]

theorem listParts_of_eq {s : String} {front rest : List Char} (hs : s.toList = front ++ ',' :: rest)
    (h : ',' ∉ front) (hne : trim front ≠ []) :
    listParts s = String.ofList (trim front) :: listParts (String.ofList rest) := by
  have hfront : listParts (String.ofList front) = [String.ofList (trim front)] := by
    simpa using listParts_of_notMem (s := String.ofList front) (by simpa) (by simpa)
  rw [← String.ofList_toList (s := s), hs, listParts_append, hfront, List.singleton_append]

theorem parseList_intercalate (texts : List String) :
    parseList (",".intercalate texts) = (texts.flatMap listParts).mapM parse := by
  rw [parseList, listParts_intercalate]

/-- A literal without a comma is read, and then the rest of the list. -/
theorem parseList_intercalate_cons {text : String} {texts : List String} {d : Delay}
    (h : parse text = .ok d) (hcomma : ',' ∉ text.toList) :
    parseList (",".intercalate (text :: texts)) =
      (parseList (",".intercalate texts)).map (d :: ·) := by
  rw [parseList_intercalate, parseList_intercalate, List.flatMap_cons,
    listParts_of_notMem hcomma (trim_ne_nil_of_parse h), List.singleton_append, List.mapM_cons,
    parse_trim h]
  cases (texts.flatMap listParts).mapM parse <;> rfl

/-- The front of a literal with a comma is reported, whatever follows. -/
theorem parseList_intercalate_cons_of_comma {text : String} {texts : List String} {d : Delay}
    {front rest : List Char} (h : parse text = .ok d) (htext : text.toList = front ++ ',' :: rest)
    (hfront : ',' ∉ front) :
    parseList (",".intercalate (text :: texts)) = .error ⟨String.ofList (trim front)⟩ := by
  obtain ⟨hne, herror⟩ := refused_front h htext
  rw [parseList_intercalate, List.flatMap_cons, listParts_of_eq htext hfront hne, List.cons_append,
    List.mapM_cons, herror]
  rfl

section

variable {texts before after : List String} {text : String} {front rest : List Char}
  {delays : List Delay}

theorem exists_parse_of_mem (h : List.Forall₂ (fun text d => parse text = .ok d) texts delays) :
    ∀ text ∈ texts, ∃ d, parse text = .ok d := by
  induction h with
  | nil => exact nofun
  | cons htext _ ih => exact List.forall_mem_cons.2 ⟨⟨_, htext⟩, ih⟩

theorem parseList_of_notMem (h : List.Forall₂ (fun text d => parse text = .ok d) texts delays)
    (hcomma : ∀ text ∈ texts, ',' ∉ text.toList) :
    parseList (",".intercalate texts) = .ok delays := by
  induction h with
  | nil => rfl
  | cons htext _ ih =>
    obtain ⟨hfirst, hrest⟩ := List.forall_mem_cons.1 hcomma
    rw [parseList_intercalate_cons htext hfirst, ih hrest]
    rfl

theorem parseList_of_first_comma (hparse : ∀ s ∈ before ++ text :: after, ∃ d, parse s = .ok d)
    (hbefore : ∀ s ∈ before, ',' ∉ s.toList) (htext : text.toList = front ++ ',' :: rest)
    (hfront : ',' ∉ front) : parseList (",".intercalate (before ++ text :: after)) =
      .error ⟨String.ofList (trim front)⟩ := by
  induction before with
  | nil =>
    obtain ⟨d, hd⟩ := hparse text List.mem_cons_self
    exact parseList_intercalate_cons_of_comma hd htext hfront
  | cons s before ih =>
    obtain ⟨hs, hbefore⟩ := List.forall_mem_cons.1 hbefore
    obtain ⟨⟨d, hd⟩, hparse⟩ := List.forall_mem_cons.1 hparse
    rw [List.cons_append, parseList_intercalate_cons hd hs, ih hparse hbefore]
    rfl

/-- Texts some of which have a comma have a first one, and that text a first comma. -/
theorem exists_first_comma (h : ∃ text ∈ texts, ',' ∈ text.toList) :
    ∃ before text after front rest, texts = before ++ text :: after ∧
      (∀ s ∈ before, ',' ∉ s.toList) ∧ text.toList = front ++ ',' :: rest ∧ ',' ∉ front := by
  have hsome : (texts.find? fun s => ',' ∈ s.toList).isSome := by simpa using h
  obtain ⟨text, htext⟩ := Option.isSome_iff_exists.1 hsome
  obtain ⟨hcomma, before, after, htexts, hbefore⟩ := List.find?_eq_some_iff_append.1 htext
  obtain ⟨front, rest, hchars, hfront⟩ := List.eq_append_cons_of_mem (of_decide_eq_true hcomma)
  exact ⟨before, text, after, front, rest, htexts, by simpa using hbefore, hchars, hfront⟩

/-- **Joined literals are read as a list if none of them has a comma.** Literals that are each read
on their own, joined with commas, are read as the list of their delays, in the same order, exactly
if none of them has a decimal comma. Otherwise the list is cut inside the first literal that has
one: nothing is read, and the text in front of that comma is reported, trimmed. -/
theorem joined_literals_are_read_iff
    (h : List.Forall₂ (fun text d => parse text = .ok d) texts delays) :
    (parseList (",".intercalate texts) = .ok delays ↔ ∀ text ∈ texts, ',' ∉ text.toList) ∧
    ∀ before text after front rest, texts = before ++ text :: after →
      (∀ s ∈ before, ',' ∉ s.toList) → text.toList = front ++ ',' :: rest → ',' ∉ front →
      parseList (",".intercalate texts) = .error ⟨String.ofList (trim front)⟩ := by
  have hparse := exists_parse_of_mem h
  refine ⟨⟨fun hread text htext hcomma => ?_, parseList_of_notMem h⟩, ?_⟩
  · obtain ⟨before, s, after, front, rest, rfl, hbefore, hs, hfront⟩ :=
      exists_first_comma ⟨text, htext, hcomma⟩
    rw [parseList_of_first_comma hparse hbefore hs hfront] at hread
    cases hread
  · rintro before text after front rest rfl hbefore htext hfront
    exact parseList_of_first_comma hparse hbefore htext hfront

end

/-- A plan of three literals, and one whose second literal has a decimal comma. -/
theorem plans_are_read_and_cut :
    parseList (",".intercalate ["PT1S", " p1dt2h ", "PT1.5S"]) =
      .ok [.ofSeconds 1, .ofSeconds 93600, ⟨1500000000, by decide⟩] ∧
    parseList (",".intercalate ["PT5M", " pt1,5s", "PT9S"]) = .error ⟨"pt1"⟩ := by
  constructor
  · refine (joined_literals_are_read_iff ?_).1.2 (by decide)
    exact .cons (by decide) (.cons (by decide) (.cons (by decide) .nil))
  · have hread : List.Forall₂ (fun text d => parse text = .ok d) ["PT5M", " pt1,5s", "PT9S"]
        [.ofSeconds 300, ⟨1500000000, by decide⟩, .ofSeconds 9] :=
      .cons (by decide) (.cons (by decide) (.cons (by decide) .nil))
    exact (joined_literals_are_read_iff hread).2 ["PT5M"] " pt1,5s" ["PT9S"] " pt1".toList
      "5s".toList rfl (by decide) (by decide) (by decide)

/-- A literal with a decimal comma is read on its own, but as a list of one literal it is not. -/
theorem decimal_comma_cuts_literal :
    (parse "PT1,5S").map Delay.nanos = .ok 1500000000 ∧
      parseList (",".intercalate ["PT1,5S"]) = .error ⟨"PT1"⟩ := by
  decide

end Literal

end DurableQueue
