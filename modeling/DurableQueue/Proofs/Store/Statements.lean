import DurableQueue.Store.Call
import DurableQueue.Store.Sql.Query
import Mathlib.Data.List.Basic
import Mathlib.Tactic.Common

/-!
# Names and values in statements

A statement is a template with gaps for names and places for values. Names stand in the text that is
sent, and values are sent beside it.

* `Schema.Built` and `Location.Built` are the schemas and the locations that are built, from
  whatever names they are given;
* `StoreCall.Related` compares calls by what shapes their statements;
* `Statement.template` is a statement without its names, and `Statement.Sound` says that its names
  are clean and its places are those of the values beside it;
* `StatementOf` is the relation of a call and its statements. These are sound
  (`StatementOf.sound`), their template goes by the form of the call (`StatementOf.template_eq`),
  and their text by its names as well (`StatementOf.pieces_eq`).
-/

namespace DurableQueue

open Identifier

/-! ### Built names -/

namespace Schema

/-- The schemas that are built from the default one by naming and declaring columns. -/
inductive Built : Schema → Prop
  | default : Built {}
  | withExtra {s : Schema} (h : Built s) (column : String) : Built (s.withExtra column)
  | withQueueName {s : Schema} (h : Built s) (column : String) : Built (s.withQueueName column)
  | withPayload {s : Schema} (h : Built s) (column : String) : Built (s.withPayload column)
  | withNextProcessAt {s : Schema} (h : Built s) (column : String) :
    Built (s.withNextProcessAt column)

theorem isClean_default : IsClean {} := by
  constructor <;> simp [IsColumnName, isColumnChar, Char.isAlphanum]

theorem Built.isClean {s : Schema} (h : s.Built) : s.IsClean := by
  induction h with
  | default => exact isClean_default
  | withExtra h column ih =>
    refine { ih with extra := fun name hname => ?_ }
    rcases List.mem_append.1 hname with hname | hname
    · exact ih.extra name hname
    · rw [List.mem_singleton.1 hname]
      exact isColumnName_columnName column
  | withQueueName h column ih => exact { ih with queueName := isColumnName_columnName column }
  | withPayload h column ih => exact { ih with payload := isColumnName_columnName column }
  | withNextProcessAt h column ih =>
    exact { ih with nextProcessAt := isColumnName_columnName column }

/-- The columns that a schema names. -/
def columns (s : Schema) : List String :=
  [s.queueName, s.payload, s.createdAt, s.nextProcessAt, s.attempt, s.reenqueueAttempt,
    s.totalAttempt] ++ s.extra

theorem IsClean.column {s : Schema} (h : s.IsClean) {column : String} (hc : column ∈ s.columns) :
    IsColumnName column := by
  simp only [columns, List.mem_append, List.mem_cons, List.not_mem_nil, or_false] at hc
  rcases hc with (rfl | rfl | rfl | rfl | rfl | rfl | rfl) | hc
  · exact h.queueName
  · exact h.payload
  · exact h.createdAt
  · exact h.nextProcessAt
  · exact h.attempt
  · exact h.reenqueueAttempt
  · exact h.totalAttempt
  · exact h.extra column hc

/-- Extra values are resolved exactly when their columns are declared, each to the column that its
name is cleaned to. -/
theorem resolveExtra_eq_ok_iff {s : Schema} {extra : Dict String}
    {columns : List (String × String)} :
    s.resolveExtra extra = .ok columns ↔ (∀ key ∈ extra.keys, columnName key ∈ s.extra) ∧
      columns = extra.entries.map fun e => (columnName e.1, e.2) := by
  simp only [resolveExtra, Dict.keys]
  generalize extra.entries = entries
  induction entries generalizing columns with
  | nil => simp [pure, Except.pure, eq_comm]
  | cons e entries ih =>
    rw [List.mapM_cons]
    by_cases hdeclared : columnName e.1 ∈ s.extra
    · simp only [resolveColumn, List.contains_iff_mem.2 hdeclared, if_true, bind, Except.bind, pure,
        Except.pure, List.map_cons, List.forall_mem_cons, hdeclared, true_and] at ih ⊢
      split
      next error hrest =>
        rw [hrest] at ih
        refine iff_of_false (by simp) fun h => ?_
        have hok := ih.2 ⟨h.1, rfl⟩
        cases hok
      next rest hrest =>
        obtain ⟨hall, rfl⟩ := ih.1 hrest
        exact ⟨fun h => ⟨hall, (Except.ok.inj h).symm⟩, fun h => congrArg Except.ok h.2.symm⟩
    · simp [resolveColumn, hdeclared, bind, Except.bind]

end Schema

/-- The locations that are built from the names of a table and of sequences. -/
inductive Location.Built : Location → Prop
  | of (queue : QueueId) (table : String) : Built (.of queue table)
  | withIdSequence {l : Location} (h : Built l) (sequence : String) :
    Built (l.withIdSequence sequence)

theorem Location.Built.isClean {l : Location} (h : l.Built) : l.IsClean := by
  induction h with
  | of queue table => exact isClean_of queue table
  | withIdSequence h sequence ih => exact isClean_withIdSequence ih sequence

/-! ### Calls on rows -/

namespace StoreCall

/-- Two calls on rows, of one kind and for one kind of failure delay; of new tasks only what a
relation says is compared. -/
inductive Related (R : NewTask → NewTask → Prop) : StoreCall → StoreCall → Prop
  | pick {failure failure' : FailureSettings} (h : failure'.retryType = failure.retryType) :
    Related R (.pick failure) (.pick failure')
  | enqueue {task task' : NewTask} (h : R task task') : Related R (.enqueue task) (.enqueue task')
  | delete (id id' : Int) : Related R (.delete id) (.delete id')
  | reenqueue (id id' : Int) (delay delay' : Delay) :
    Related R (.reenqueue id delay) (.reenqueue id' delay')

/-- Calls that may differ in the values that they carry, but have the same extra columns. -/
def Alike : StoreCall → StoreCall → Prop :=
  Related fun task task' => task'.extra.keys.map columnName = task.extra.keys.map columnName

/-- Calls that may differ in the extra columns as well, but not in the number of them. -/
def SameForm : StoreCall → StoreCall → Prop :=
  Related fun task task' => task'.extra.keys.length = task.extra.keys.length

/-- The values that a call binds, from the first place on. -/
def bound (l : Location) : StoreCall → List Sql.Value
  | .pick failure => [.text l.queue, .millis failure.retryInterval]
  | .enqueue task =>
    [.text l.queue, .text task.payload, .millis task.delay]
      ++ task.extra.values.map fun v => .text (some v)
  | .delete id => [.text l.queue, .number id]
  | .reenqueue id delay => [.text l.queue, .number id, .millis delay]
  | _ => []

/-- A call on rows whose extra columns are declared. -/
def IsDeclared (s : Schema) : StoreCall → Prop
  | .pick _ | .delete _ | .reenqueue _ _ => True
  | .enqueue task => ∀ key ∈ task.extra.keys, columnName key ∈ s.extra
  | _ => False

end StoreCall

namespace Sql

/-! ### Parts of statements -/

/-- A part with an empty gap in place of a name. -/
def Piece.blank : Piece → Piece
  | .name _ => .name ""
  | p => p

/-- A statement without its names: fixed words, gaps and places. -/
def Statement.template (st : Statement) : List Piece := st.pieces.map Piece.blank

@[simp] theorem Piece.blank_words (w : String) : (words w).blank = words w := rfl

@[simp] theorem Piece.blank_name (n : String) : (name n).blank = name "" := rfl

@[simp] theorem Piece.blank_slot (n : Nat) : (slot n).blank = slot n := rfl

theorem Statement.mem_names_iff {st : Statement} {n : String} :
    n ∈ st.names ↔ .name n ∈ st.pieces := by
  simp only [names, List.mem_filterMap]
  constructor
  · rintro ⟨p, hp, heq⟩
    cases p <;> cases heq
    exact hp
  · exact fun h => ⟨_, h, rfl⟩

theorem Statement.mem_slots_iff {st : Statement} {n : Nat} :
    n ∈ st.slots ↔ .slot n ∈ st.pieces := by
  simp only [slots, List.mem_filterMap]
  constructor
  · rintro ⟨p, hp, heq⟩
    cases p <;> cases heq
    exact hp
  · exact fun h => ⟨_, h, rfl⟩

/-- Separators are words, so that names and places between them are those of the groups. -/
theorem mem_separated_iff {sep : String} {groups : List (List Piece)} {p : Piece}
    (hp : ∀ w, p ≠ .words w) : p ∈ separated sep groups ↔ ∃ g ∈ groups, p ∈ g := by
  fun_induction separated sep groups with
  | case1 => simp
  | case2 g => simp
  | case3 g g' groups ih => simp [ih, hp]

theorem map_blank_separated (sep : String) (groups : List (List Piece)) :
    (separated sep groups).map Piece.blank = separated sep (groups.map (·.map Piece.blank)) := by
  fun_induction separated sep groups with
  | case1 => rfl
  | case2 g => rfl
  | case3 g g' groups ih => simp_all [separated]

/-! ### Failure delays -/

theorem Factor.name_mem_pieces {column n : String} {f : Factor} (h : .name n ∈ f.pieces column) :
    n = column := by
  induction f <;> simp_all [pieces]
  all_goals rcases h with h | h <;> simp_all

theorem Factor.slot_notMem_pieces (column : String) (f : Factor) (n : Nat) :
    .slot n ∉ f.pieces column := by
  induction f <;> simp_all [pieces]

theorem Factor.map_blank_pieces (column : String) (f : Factor) :
    (f.pieces column).map Piece.blank = f.pieces "" := by
  induction f <;> simp_all [pieces]

theorem name_mem_failureDelay {column n : String} {type : FailureRetryType} {k : Nat}
    (h : .name n ∈ failureDelay column type k) : n = column := by
  cases hf : failureFactor? type with
  | none => simp [failureDelay, hf, interval] at h
  | some f =>
    simp only [failureDelay, hf, interval, List.mem_append, List.mem_cons, reduceCtorEq,
      List.not_mem_nil, or_false] at h
    exact Factor.name_mem_pieces h

theorem slot_mem_failureDelay_iff {column : String} {type : FailureRetryType} {k n : Nat} :
    .slot n ∈ failureDelay column type k ↔ n = k := by
  cases hf : failureFactor? type with
  | none => simp [failureDelay, hf, interval]
  | some f => simp [failureDelay, hf, interval, Factor.slot_notMem_pieces]

theorem map_blank_failureDelay (column : String) (type : FailureRetryType) (k : Nat) :
    (failureDelay column type k).map Piece.blank = failureDelay "" type k := by
  cases hf : failureFactor? type with
  | none => simp [failureDelay, hf, interval]
  | some f => simp [failureDelay, hf, interval, Factor.map_blank_pieces]

/-! ### New rows -/

theorem map_fst_extraEntries (n : Nat) (columns : List String) :
    (extraEntries n columns).map (·.1) = columns := by
  induction columns generalizing n with
  | nil => rfl
  | cons c cs ih => simp [extraEntries, ih]

theorem map_snd_extraEntries (n : Nat) (columns : List String) :
    (extraEntries n columns).map (·.2) = (List.range' n columns.length).map Source.slot := by
  induction columns generalizing n with
  | nil => rfl
  | cons c cs ih => simp [extraEntries, ih, List.range'_succ]

/-- The columns of a new row. -/
theorem map_fst_insertEntries (s : Schema) (l : Location) (columns : List String) :
    (insertEntries s l columns).map (·.1) = (l.idSequence.map fun _ => "id").toList ++
      [s.queueName, s.payload, s.createdAt, s.nextProcessAt, s.attempt, s.reenqueueAttempt,
        s.totalAttempt] ++ columns := by
  cases h : l.idSequence <;> simp [insertEntries, h, map_fst_extraEntries]

/-- What the columns of a new row are set to. -/
theorem map_snd_insertEntries (s : Schema) (l : Location) (columns : List String) :
    (insertEntries s l columns).map (·.2) = (l.idSequence.map Source.sequence).toList ++
      [.slot 1, .slot 2, .now, .after 3, .zero, .zero, .zero] ++
      (List.range' 4 columns.length).map Source.slot := by
  cases h : l.idSequence <;> simp [insertEntries, h, map_snd_extraEntries]

theorem Source.name_mem_pieces_iff {source : Source} {n : String} :
    .name n ∈ source.pieces ↔ source = .sequence n := by
  cases source <;> simp [pieces, interval, eq_comm]

theorem Source.slot_mem_pieces_iff {source : Source} {n : Nat} :
    .slot n ∈ source.pieces ↔ source = .slot n ∨ source = .after n := by
  cases source <;> simp [pieces, interval, eq_comm]

section Insert

variable {s s' : Schema} {l l' : Location} {task task' : NewTask}
  {columns columns' : List (String × String)}

theorem mem_names_insert_iff {n : String} :
    n ∈ (insertStatement s l task columns).names ↔ n = l.table ∨
      n ∈ (insertEntries s l (columns.map (·.1))).map (·.1) ∨
      .sequence n ∈ (insertEntries s l (columns.map (·.1))).map (·.2) := by
  simp [Statement.mem_names_iff, insertStatement, mem_separated_iff, Source.name_mem_pieces_iff]

theorem mem_slots_insert_iff {n : Nat} :
    n ∈ (insertStatement s l task columns).slots ↔
      .slot n ∈ (insertEntries s l (columns.map (·.1))).map (·.2) ∨
      .after n ∈ (insertEntries s l (columns.map (·.1))).map (·.2) := by
  simp [Statement.mem_slots_iff, insertStatement, mem_separated_iff, Source.slot_mem_pieces_iff,
    and_or_left, exists_or]

/-- The template of an insertion goes by the number of columns and by whether there is a
sequence. -/
theorem template_insert (hsequence : l'.idSequence.isSome = l.idSequence.isSome)
    (hcolumns : columns'.length = columns.length) :
    (insertStatement s' l' task' columns').template =
      (insertStatement s l task columns).template := by
  have hpieces (s : Schema) (l : Location) (task : NewTask) (columns : List (String × String)) :
      (insertStatement s l task columns).template =
        [.words "INSERT INTO ", .name "", .words " ("]
        ++ separated ", " (((insertEntries s l (columns.map (·.1))).map (·.1)).map
          fun _ => [.name ""])
        ++ .words ") VALUES (" :: separated ", "
          (((insertEntries s l (columns.map (·.1))).map (·.2)).map
            fun source => source.pieces.map Piece.blank)
        ++ [.words ") RETURNING id"] := by
    simp [Statement.template, insertStatement, map_blank_separated, Function.comp_def]
  rw [hpieces, hpieces]
  -- without names, the lists of columns and of sources differ in nothing but their lengths
  simp only [map_fst_insertEntries, map_snd_insertEntries]
  cases hs : l.idSequence <;> cases hs' : l'.idSequence <;>
    simp_all [Source.pieces, Function.comp_def, List.map_const']

end Insert

/-! ### The statements of calls -/

/-- A statement with some values beside it: its names are clean, and its places are those of the
values. -/
structure Statement.Sound (values : List Value) (st : Statement) : Prop where
  names : ∀ name ∈ st.names, IsTableName name
  bound : st.values = values
  slots : ∀ n, n ∈ st.slots ↔ 0 < n ∧ n ≤ values.length

/-- The names in a claim of a row are the table and columns. -/
theorem names_pick_subset (s : Schema) (l : Location) (failure : FailureSettings) :
    (pickStatement s l failure).names ⊆ l.table :: s.columns := by
  intro n hn
  have hstart : [l.table, s.queueName, s.nextProcessAt, s.nextProcessAt, l.table,
      s.nextProcessAt] ⊆ l.table :: s.columns := by simp [Schema.columns]
  have hattempts : [s.attempt, s.attempt, s.totalAttempt, s.totalAttempt] ⊆
      l.table :: s.columns := by simp [Schema.columns]
  have hreturned : recordColumns s ⊆ l.table :: s.columns :=
    List.append_subset.2 ⟨by simp [Schema.columns], fun c hc => by simp [Schema.columns, hc]⟩
  -- the statement has four parts, and the delay is one of them
  simp only [Statement.mem_names_iff, pickStatement, List.mem_append] at hn
  rcases hn with ((hn | hn) | hn) | hn
  · exact hstart (by simpa using hn)
  · simp [Schema.columns, name_mem_failureDelay hn]
  · exact hattempts (by simpa using hn)
  · exact hreturned (by simpa [mem_separated_iff] using hn)

theorem names_delete (s : Schema) (l : Location) (id : Int) :
    (deleteStatement s l id).names = [l.table, s.queueName] := rfl

theorem names_reenqueue (s : Schema) (l : Location) (id : Int) (delay : Delay) :
    (reenqueueStatement s l id delay).names = [l.table, s.nextProcessAt, s.attempt,
      s.reenqueueAttempt, s.reenqueueAttempt, s.queueName] := rfl

section Sound

variable {s : Schema} {l : Location} (hs : s.IsClean) (hl : l.IsClean)

include hs hl

theorem isTableName_of_mem {n : String} (h : n ∈ l.table :: s.columns) : IsTableName n := by
  rcases List.mem_cons.1 h with rfl | h
  · exact hl.1
  · exact (hs.column h).isTableName

theorem sound_pick (failure : FailureSettings) :
    (pickStatement s l failure).Sound ((StoreCall.pick failure).bound l) := by
  refine ⟨fun n hn => isTableName_of_mem hs hl (names_pick_subset s l failure hn), rfl,
    fun n => ?_⟩
  simp only [Statement.mem_slots_iff, pickStatement, List.mem_append, slot_mem_failureDelay_iff]
  simp [mem_separated_iff, StoreCall.bound]
  omega

theorem sound_insert {task : NewTask} {columns : List (String × String)}
    (hcolumns : s.resolveExtra task.extra = .ok columns) :
    (insertStatement s l task columns).Sound ((StoreCall.enqueue task).bound l) := by
  obtain ⟨-, rfl⟩ := Schema.resolveExtra_eq_ok_iff.1 hcolumns
  refine ⟨fun n hn => ?_, ?_, fun n => ?_⟩
  · have hfixed : [s.queueName, s.payload, s.createdAt, s.nextProcessAt, s.attempt,
        s.reenqueueAttempt, s.totalAttempt] ⊆ l.table :: s.columns := by simp [Schema.columns]
    rw [mem_names_insert_iff, map_fst_insertEntries, map_snd_insertEntries] at hn
    rcases hn with rfl | hcolumn | hsequence
    · exact hl.1
    · rcases List.mem_append.1 hcolumn with hrow | hextra
      · rcases List.mem_append.1 hrow with hid | hrow
        · obtain rfl : n = "id" := by
            cases hsequence : l.idSequence <;> simp_all
          simp [IsTableName, isTableChar, isColumnChar, Char.isAlphanum]
        · exact isTableName_of_mem hs hl (hfixed hrow)
      · obtain ⟨e, -, rfl⟩ : ∃ e ∈ task.extra.entries, columnName e.1 = n := by
          simpa using hextra
        exact (isColumnName_columnName e.1).isTableName
    · exact hl.2 n (by simpa using hsequence)
  · simp [insertStatement, StoreCall.bound, Dict.values, Function.comp_def]
  · rw [mem_slots_insert_iff, map_snd_insertEntries]
    simp [StoreCall.bound, Dict.values]
    omega

theorem sound_delete (id : Int) :
    (deleteStatement s l id).Sound ((StoreCall.delete id).bound l) := by
  refine ⟨fun n hn => isTableName_of_mem hs hl ?_, rfl, fun n => ?_⟩
  · have hnames : [l.table, s.queueName] ⊆ l.table :: s.columns := by simp [Schema.columns]
    exact hnames (names_delete s l id ▸ hn)
  · simp [Statement.mem_slots_iff, deleteStatement, StoreCall.bound]
    omega

theorem sound_reenqueue (id : Int) (delay : Delay) :
    (reenqueueStatement s l id delay).Sound ((StoreCall.reenqueue id delay).bound l) := by
  refine ⟨fun n hn => isTableName_of_mem hs hl ?_, rfl, fun n => ?_⟩
  · have hnames : [l.table, s.nextProcessAt, s.attempt, s.reenqueueAttempt, s.reenqueueAttempt,
        s.queueName] ⊆ l.table :: s.columns := by simp [Schema.columns]
    exact hnames (names_reenqueue s l id delay ▸ hn)
  · simp [Statement.mem_slots_iff, reenqueueStatement, interval, StoreCall.bound]
    omega

end Sound

theorem template_pick {s s' : Schema} {l l' : Location} {failure failure' : FailureSettings}
    (htype : failure'.retryType = failure.retryType)
    (hextra : s'.extra.length = s.extra.length) :
    (pickStatement s' l' failure').template = (pickStatement s l failure).template := by
  simp [Statement.template, pickStatement, map_blank_failureDelay, map_blank_separated,
    recordColumns, Function.comp_def, List.map_const', htype, hextra]

/-- The statements that a session may send for a call. -/
inductive StatementOf (s : Schema) (l : Location) : StoreCall → Statement → Prop
  | rollback : StatementOf s l .begin (.ofWords "ROLLBACK")
  | begin : StatementOf s l .begin (.ofWords "BEGIN")
  | pick (failure : FailureSettings) : StatementOf s l (.pick failure) (pickStatement s l failure)
  | insert {task : NewTask} {columns : List (String × String)}
    (h : s.resolveExtra task.extra = .ok columns) :
    StatementOf s l (.enqueue task) (insertStatement s l task columns)
  | delete (id : Int) : StatementOf s l (.delete id) (deleteStatement s l id)
  | reenqueue (id : Int) (delay : Delay) :
    StatementOf s l (.reenqueue id delay) (reenqueueStatement s l id delay)
  | commit : StatementOf s l .commit (.ofWords "COMMIT")

namespace StatementOf

variable {s s' : Schema} {l l' : Location} {call call' : StoreCall} {st st' : Statement}

theorem sound (h : StatementOf s l call st) (hs : s.IsClean) (hl : l.IsClean) :
    st.Sound (call.bound l) := by
  have hwords (w : String) : (Statement.ofWords w).Sound [] := by
    refine ⟨nofun, rfl, fun n => iff_of_false nofun ?_⟩
    simp
    omega
  cases h with
  | pick failure => exact sound_pick hs hl failure
  | insert h => exact sound_insert hs hl h
  | delete id => exact sound_delete hs hl id
  | reenqueue id delay => exact sound_reenqueue hs hl id delay
  | rollback | begin | commit => exact hwords _

/-- Calls of the same form have statements with one template, whatever their names are. -/
theorem template_eq (h : StatementOf s l call st) (h' : StatementOf s' l' call' st')
    (hcalls : call.SameForm call') (hextra : s'.extra.length = s.extra.length)
    (hsequence : l'.idSequence.isSome = l.idSequence.isSome) : st'.template = st.template := by
  cases hcalls with
  | pick htype =>
    cases h
    cases h'
    exact template_pick htype hextra
  | enqueue hcount =>
    cases h with | insert hcolumns =>
    cases h' with | insert hcolumns' =>
    obtain ⟨-, rfl⟩ := Schema.resolveExtra_eq_ok_iff.1 hcolumns
    obtain ⟨-, rfl⟩ := Schema.resolveExtra_eq_ok_iff.1 hcolumns'
    exact template_insert hsequence (by simpa [Dict.keys] using hcount)
  | delete id id' =>
    cases h
    cases h'
    simp [Statement.template, deleteStatement]
  | reenqueue id id' delay delay' =>
    cases h
    cases h'
    simp [Statement.template, reenqueueStatement, interval]

/-- Alike calls for one table and one sequence have statements with the same text. -/
theorem pieces_eq (h : StatementOf s l call st) (h' : StatementOf s l' call' st')
    (hcalls : call.Alike call') (htable : l'.table = l.table)
    (hsequence : l'.idSequence = l.idSequence) : st'.pieces = st.pieces := by
  cases hcalls with
  | pick htype =>
    cases h
    cases h'
    simp [pickStatement, htable, htype]
  | @enqueue task task' hkeys =>
    cases h with | @insert _ columns hcolumns =>
    cases h' with | @insert _ columns' hcolumns' =>
    obtain ⟨-, rfl⟩ := Schema.resolveExtra_eq_ok_iff.1 hcolumns
    obtain ⟨-, rfl⟩ := Schema.resolveExtra_eq_ok_iff.1 hcolumns'
    have hnames : (task'.extra.entries.map fun e => columnName e.1) =
        task.extra.entries.map fun e => columnName e.1 := by
      simpa [Dict.keys, Function.comp_def] using hkeys
    simp [insertStatement, insertEntries, htable, hsequence, Function.comp_def, hnames]
  | delete id id' =>
    cases h
    cases h'
    simp [deleteStatement, htable]
  | reenqueue id id' delay delay' =>
    cases h
    cases h'
    simp [reenqueueStatement, htable]

end StatementOf

end Sql

end DurableQueue
