import DurableQueue.Proofs.Config.Keys
import Mathlib.Data.List.Forall2
import Mathlib.Data.List.Induction

/-!
# Layers of files

A configuration is read from files one on top of the other, of which a later one overrides an
earlier one key by key. That is to read one file with all their texts, one behind the other.

* `merged` are the properties of some texts, and `read_texts` says that a configuration is read
  from them; `texts_or_unreadable` tells files that can all be read from those that cannot;
* `Text.lines` are the lines of a text, whose last one needs no end, and `definitions_eq_lines` says
  that the properties of a text are those of its lines;
* `Defines` says which lines define a key, `Gives` which value a text gives it, and `LastGives`
  which value several texts do;
* `parse_intercalate` and `layers_read_as_one` are the main statements.
-/

namespace DurableQueue

/-! ### Dictionaries -/

namespace Dict

variable {α : Type}

/-- A second dictionary wins over the first. -/
theorem get?_merge (d e : Dict α) (k : String) : (d.merge e).get? k = (e.get? k).or (d.get? k) := by
  rw [merge, get?_foldl_insert, ← get?_ofList, ofList_entries]

/-- The last pair of a key has its value. -/
theorem get?_ofList_eq_some_iff_last {es : List (String × α)} {k : String} {v : α} :
    (ofList es).get? k = some v ↔
      ∃ before after, es = before ++ (k, v) :: after ∧ ∀ w, (k, w) ∉ after := by
  rw [get?_ofList, List.lookup_eq_some_iff]
  constructor
  · rintro ⟨after, before, hes, hafter⟩
    refine ⟨before.reverse, after.reverse, ?_, fun w hw => ?_⟩
    · rw [← List.reverse_reverse es, hes]
      simp
    · simpa using hafter (k, w) (List.mem_reverse.1 hw)
  · rintro ⟨before, after, rfl, hafter⟩
    refine ⟨after.reverse, before.reverse, by simp, fun p hp => ?_⟩
    rw [bne_iff_ne]
    rintro rfl
    exact hafter p.2 (List.mem_reverse.1 hp)

theorem ofList_append (es fs : List (String × α)) :
    ofList (es ++ fs) = (ofList es).merge (ofList fs) := by
  refine ext_get? fun k => ?_
  rw [get?_merge, get?_ofList, get?_ofList, get?_ofList, List.reverse_append, List.lookup_append]

end Dict

/-! ### Lines -/

namespace Text

/-- The lines of a text. A line ends with a newline, which a carriage return may precede, or with
the text. -/
def lines : List Char → List (List Char)
  | [] => []
  | '\n' :: cs => [] :: lines cs
  | '\r' :: '\n' :: cs => [] :: lines cs
  | c :: cs =>
    match lines cs with
    | [] => [[c]]
    | line :: rest => (c :: line) :: rest

theorem trim_append_return (cs : List Char) : trim (cs ++ ['\r']) = trim cs := by
  have hblank : isBlank '\r' = true := by decide
  simp only [trim, trimStart, List.dropWhile_append]
  split
  next hnil =>
    rw [List.isEmpty_iff.1 hnil]
    decide
  next => simp [trimEnd, hblank]

/-- A piece between newlines is a line, perhaps with the carriage return of its end. -/
def IsPieceOf (piece line : List Char) : Prop := piece = line ∨ piece = line ++ ['\r']

theorem IsPieceOf.cons {piece line : List Char} (h : IsPieceOf piece line) (c : Char) :
    IsPieceOf (c :: piece) (c :: line) :=
  h.imp (congrArg _) (congrArg _)

/-- The pieces between newlines are the lines, and an empty piece if the last line has an end. -/
theorem exists_pieces_lines (cs : List Char) : ∃ last, (last = [] ∨ last = [[]]) ∧
    List.Forall₂ IsPieceOf (pieces '\n' cs) (lines cs ++ last) := by
  fun_induction lines cs with
  | case1 => exact ⟨[[]], .inr rfl, .cons (.inl rfl) .nil⟩
  | case2 cs ih =>
    obtain ⟨last, hlast, h⟩ := ih
    exact ⟨last, hlast, .cons (.inl rfl) h⟩
  | case3 cs ih =>
    obtain ⟨last, hlast, h⟩ := ih
    exact ⟨last, hlast, .cons (.inr rfl) h⟩
  | case4 c cs hnewline hreturn hnil ih =>
    obtain ⟨last, hlast, h⟩ := ih
    rw [hnil, List.nil_append] at h
    rcases hlast with rfl | rfl
    · exact absurd (List.forall₂_nil_right_iff.1 h) (pieces_ne_nil _ _)
    · obtain ⟨piece, _, hpiece, hnone, hpieces⟩ := List.forall₂_cons_right_iff.1 h
      cases hnone
      refine ⟨[], .inl rfl, ?_⟩
      rw [pieces, if_neg hnewline, hpieces]
      exact .cons (hpiece.cons c) .nil
  | case5 c cs hnewline hreturn line rest hlines ih =>
    obtain ⟨last, hlast, h⟩ := ih
    rw [hlines, List.cons_append] at h
    obtain ⟨piece, pieces', hpiece, hrest, hpieces⟩ := List.forall₂_cons_right_iff.1 h
    refine ⟨last, hlast, ?_⟩
    rw [pieces, if_neg hnewline, hpieces]
    exact .cons (hpiece.cons c) hrest

theorem filterMap_eq_of_isPieceOf {β : Type} {f : List Char → Option β}
    (hreturn : ∀ line, f (line ++ ['\r']) = f line) {pieces lines : List (List Char)}
    (h : List.Forall₂ IsPieceOf pieces lines) : pieces.filterMap f = lines.filterMap f := by
  induction h with
  | nil => rfl
  | @cons piece line _ _ hpiece _ ih =>
    have hline : f piece = f line := by
      rcases hpiece with rfl | rfl
      · rfl
      · exact hreturn line
    rw [List.filterMap_cons, List.filterMap_cons, hline, ih]

/-- How lines end does not matter when empty lines and carriage returns do not. -/
theorem filterMap_pieces {β : Type} {f : List Char → Option β} (hnil : f [] = none)
    (hreturn : ∀ line, f (line ++ ['\r']) = f line) (cs : List Char) :
    (pieces '\n' cs).filterMap f = (lines cs).filterMap f := by
  obtain ⟨last, hlast, h⟩ := exists_pieces_lines cs
  have hnone : last.filterMap f = [] := by
    rcases hlast with rfl | rfl
    · rfl
    · simp [hnil]
  rw [filterMap_eq_of_isPieceOf hreturn h, List.filterMap_append, hnone, List.append_nil]

end Text

/-! ### Properties -/

namespace Properties

open Text (lines trim pieces splitOnce splitOnce_eq_some_iff)

/-- The properties of a text are those of its lines. -/
theorem definitions_eq_lines (text : List Char) :
    definitions text = (lines text).filterMap ofLine? := by
  refine Text.filterMap_pieces rfl (fun line => ?_) text
  rw [ofLine?, Text.trim_append_return, ofLine?]

/-- A line is a comment. -/
def IsComment (line : List Char) : Prop :=
  (trim line).head? = some '#' ∨ (trim line).head? = some '!'

/-- A character separates keys from values. -/
def IsSeparator (c : Char) : Prop := c = '=' ∨ c = ':'

/-- A line defines a key: it is no comment, the key stands in front of its first separator and the
value behind it, and blanks around them do not count. -/
def Defines (line : List Char) (key value : String) : Prop :=
  ¬ IsComment line ∧ key ≠ "" ∧ ∃ front separator back,
    trim line = front ++ separator :: back ∧ IsSeparator separator ∧
    (∀ c ∈ front, ¬ IsSeparator c) ∧ trim front = key.toList ∧ trim back = value.toList

/-- A text is cut into a key and a value at its first separator. -/
theorem splitOnce_separator_eq_some_iff {cs front back : List Char} :
    splitOnce (fun c => c == '=' || c == ':') cs = some (front, back) ↔
      ∃ separator, IsSeparator separator ∧ cs = front ++ separator :: back ∧
        ∀ c ∈ front, ¬ IsSeparator c := by
  simp [splitOnce_eq_some_iff, IsSeparator]

theorem ofLine?_eq_some_iff {line : List Char} {key value : String} :
    ofLine? line = some (key, value) ↔ Defines line key value := by
  cases hline : trim line with
  | nil => simp [ofLine?, Defines, hline]
  | cons c cs =>
    have hcomment : IsComment line ↔ c = '#' ∨ c = '!' := by simp [IsComment, hline]
    simp only [ofLine?, Defines, hline, hcomment]
    constructor
    · intro h
      split at h
      · cases h
      next hno =>
        split at h
        · cases h
        next front back hsplit =>
          obtain ⟨separator, hseparator, hcut, hfront⟩ := splitOnce_separator_eq_some_iff.1 hsplit
          split at h
          · cases h
          next hkey =>
            cases h
            exact ⟨hno, by simpa using hkey, front, separator, back, hcut, hseparator, hfront,
              String.toList_ofList.symm, String.toList_ofList.symm⟩
    · rintro ⟨hno, hkey, front, separator, back, hcut, hseparator, hfront, hkeys, hvalue⟩
      have hsplit := splitOnce_separator_eq_some_iff.2 ⟨separator, hseparator, hcut, hfront⟩
      have hne : key.toList ≠ [] := by simpa using hkey
      simp only [if_neg hno, hsplit]
      split
      next hnil => exact absurd (hkeys.symm.trans hnil) hne
      next => rw [hkeys, hvalue, String.ofList_toList, String.ofList_toList]

/-- A text gives a key a value: a line defines it so, and no line behind that one defines it. -/
def Gives (text key value : String) : Prop :=
  ∃ before line after, lines text.toList = before ++ line :: after ∧ Defines line key value ∧
    ∀ l ∈ after, ∀ v, ¬ Defines l key v

/-- Several texts give a key a value: one of them does, and no text behind that one gives the key
any value. -/
def LastGives (texts : List String) (key value : String) : Prop :=
  ∃ before text after, texts = before ++ text :: after ∧ Gives text key value ∧
    ∀ t ∈ after, ∀ v, ¬ Gives t key v

theorem get?_parse_eq_some_iff {text key value : String} :
    (parse text).get? key = some value ↔ Gives text key value := by
  rw [parse, definitions_eq_lines, Dict.get?_ofList_eq_some_iff_last]
  constructor
  · rintro ⟨before, after, hsplit, hafter⟩
    obtain ⟨ls, ls', hlines, -, hrest⟩ := List.filterMap_eq_append_iff.1 hsplit
    obtain ⟨skipped, line, rest, hls', -, hline, rfl⟩ := List.filterMap_eq_cons_iff.1 hrest
    refine ⟨ls ++ skipped, line, rest, ?_, ofLine?_eq_some_iff.1 hline, fun l hl v hv => ?_⟩
    · rw [hlines, hls', List.append_assoc]
    · exact hafter v (List.mem_filterMap.2 ⟨l, hl, ofLine?_eq_some_iff.2 hv⟩)
  · rintro ⟨before, line, after, hlines, hline, hafter⟩
    refine ⟨before.filterMap ofLine?, after.filterMap ofLine?, ?_, fun w hw => ?_⟩
    · rw [hlines, List.filterMap_append, List.filterMap_cons, ofLine?_eq_some_iff.2 hline]
    · obtain ⟨l, hl, hl'⟩ := List.mem_filterMap.1 hw
      exact hafter l hl w (ofLine?_eq_some_iff.1 hl')

end Properties

/-! ### Texts on top of each other -/

open Config Properties

/-- The properties of texts, of which a later one overrides an earlier one. -/
def merged (texts : List String) : Dict String :=
  texts.foldl (fun properties text => properties.merge (Properties.parse text)) .empty

/-- The last text that has a key gives it its value. -/
theorem get?_merged (texts : List String) (key : String) :
    (merged texts).get? key =
      texts.reverse.findSome? fun text => (Properties.parse text).get? key := by
  induction texts using List.reverseRecOn with
  | nil => rfl
  | append_singleton texts text ih =>
    have hlast : merged (texts ++ [text]) = (merged texts).merge (Properties.parse text) := by
      simp [merged]
    rw [hlast, Dict.get?_merge, ih, List.reverse_concat, List.findSome?_cons]
    cases (Properties.parse text).get? key <;> rfl

theorem get?_merged_eq_some_iff {texts : List String} {key value : String} :
    (merged texts).get? key = some value ↔ LastGives texts key value := by
  rw [get?_merged, List.findSome?_eq_some_iff]
  simp only [get?_parse_eq_some_iff, Option.eq_none_iff_forall_ne_some]
  constructor
  · rintro ⟨after, text, before, htexts, htext, hafter⟩
    refine ⟨before.reverse, text, after.reverse, ?_, htext, fun t ht v hv => ?_⟩
    · rw [← List.reverse_reverse texts, htexts]
      simp
    · exact hafter t (List.mem_reverse.1 ht) v (get?_parse_eq_some_iff.2 hv)
  · rintro ⟨before, text, after, rfl, htext, hafter⟩
    refine ⟨after.reverse, text, before.reverse, by simp, htext, fun t ht v hv => ?_⟩
    exact hafter t (List.mem_reverse.1 ht) v (get?_parse_eq_some_iff.1 hv)

/-- The properties of several texts, each behind the one before on a new line. -/
theorem definitions_intercalate (texts : List String) :
    definitions ("\n".intercalate texts).toList
      = texts.flatMap fun text => definitions text.toList :=
  Text.intercalate_eq_flatMap rfl rfl definitions_append texts

/-- Texts one behind the other have the properties of texts on top of each other. -/
theorem parse_intercalate (texts : List String) :
    Properties.parse ("\n".intercalate texts) = merged texts := by
  rw [Properties.parse, definitions_intercalate]
  induction texts using List.reverseRecOn with
  | nil => rfl
  | append_singleton texts text ih =>
    rw [List.flatMap_append, Dict.ofList_append, ih]
    simp [merged, Properties.parse]

/-! ### Files -/

theorem readFiles_texts (i : Nat) (properties : Dict String) (texts : List String) :
    readFiles i properties (texts.map .ok) =
      .ok (texts.foldl (fun properties text => properties.merge (Properties.parse text))
        properties) := by
  induction texts generalizing i properties with
  | nil => rfl
  | cons text texts ih => exact ih _ _

theorem readFiles_unreadable (i : Nat) (properties : Dict String) (texts : List String)
    (fault : FileFault) (rest : List File) :
    readFiles i properties (texts.map .ok ++ .error fault :: rest) =
      .error (.unreadable (i + texts.length) fault) := by
  induction texts generalizing i properties with
  | nil => rfl
  | cons text texts ih =>
    refine (ih _ _).trans ?_
    rw [List.length_cons, Nat.add_right_comm, Nat.add_assoc]

/-- Files can all be read, or there is a first one that cannot. -/
theorem texts_or_unreadable (files : List File) :
    (∃ texts : List String, files = texts.map .ok) ∨
      ∃ (texts : List String) (fault : FileFault) (rest : List File),
        files = texts.map .ok ++ .error fault :: rest := by
  induction files with
  | nil => exact .inl ⟨[], rfl⟩
  | cons file files ih =>
    cases file with
    | error fault => exact .inr ⟨[], fault, files, rfl⟩
    | ok text =>
      rcases ih with ⟨texts, rfl⟩ | ⟨texts, fault, rest, rfl⟩
      · exact .inl ⟨text :: texts, rfl⟩
      · exact .inr ⟨text :: texts, fault, rest, rfl⟩

theorem read_texts (keyPrefix : String) (texts : List String) :
    Config.read keyPrefix (texts.map .ok) = parseReported keyPrefix (merged texts) := by
  rw [Config.read, readFiles_texts]
  rfl

/-- A file of a text is read as that text. -/
theorem ofBytes_toUTF8 (text : String) : File.ofBytes text.toUTF8 = .ok text := by
  have hvalid : String.fromUTF8? text.toUTF8 = some text := dif_pos text.isValidUTF8
  rw [File.ofBytes, hvalid]

/-- **Layers of files are read as one file.** One text that holds several, each behind the one
before on a new line, gives a key exactly the value that the last of them gives it that defines the
key, and there it is the last line that counts. So a configuration that is read from files is the
same as that from one file with all their texts, and has the same problems. -/
theorem layers_read_as_one (texts : List String) :
    (∀ key value, (Properties.parse ("\n".intercalate texts)).get? key = some value ↔
      LastGives texts key value) ∧
    ∀ keyPrefix, Config.read keyPrefix (texts.map fun text => File.ofBytes text.toUTF8) =
      Config.read keyPrefix [File.ofBytes ("\n".intercalate texts).toUTF8] := by
  constructor
  · intro key value
    rw [parse_intercalate, get?_merged_eq_some_iff]
  · intro keyPrefix
    have hone : merged ["\n".intercalate texts] = merged texts := by
      rw [← parse_intercalate, ← parse_intercalate texts, String.intercalate_singleton]
    simp only [ofBytes_toUTF8]
    exact (read_texts keyPrefix texts).trans (hone ▸ (read_texts keyPrefix _).symm)

/-- A comment and a line without separator stand where one text ends and the next one begins. -/
example : (merged ["a = 1\n# b = 2\r", "no separator\r\na : 3", ""]).entries = [("a", "3")] := by
  decide +kernel

end DurableQueue
