import DurableQueue.Proofs.Store.History
import DurableQueue.Proofs.Store.Insertion
import DurableQueue.Proofs.Store.Separation
import Mathlib.Data.List.Nodup

/-!
# Columns that meet

The keys of the extra values of a task are different texts, but a column is what is left of its key
when that is cleaned, and it stands beside the columns that every row has. So two values may meet in
one column, and a value may meet a column of the schema.

* `NewTask.KeysApart`, `NewTask.KeysAvoid` and `NewTask.KeysAgree` say of the keys that no two are
  cleaned to one column, that none is cleaned to one of some columns, and that those which are
  cleaned to one column have the same value;
* `NewTask.LastFor` is the last key for a column, and `NewTask.value?_eq_of_lastFor` says that its
  value is the one that the task gives to the column;
* `Schema.rowColumns` are the columns of a row without extra values.

**Columns are named once exactly when the keys keep apart** (`columns_named_once_iff`), from each
other and from the columns of the row.
-/

namespace DurableQueue

open Identifier

/-! ### Keys -/

namespace NewTask

variable {task : NewTask} {column key : String}

/-- No two keys are cleaned to one column. -/
def KeysApart (task : NewTask) : Prop :=
  ∀ key ∈ task.extra.keys, ∀ key' ∈ task.extra.keys, columnName key = columnName key' → key = key'

/-- No key is cleaned to one of some columns. -/
def KeysAvoid (task : NewTask) (columns : List String) : Prop :=
  ∀ key ∈ task.extra.keys, columnName key ∉ columns

/-- Keys that are cleaned to one column have the same value. -/
def KeysAgree (task : NewTask) : Prop :=
  ∀ key ∈ task.extra.keys, ∀ key' ∈ task.extra.keys, columnName key = columnName key' →
    task.extra.get? key = task.extra.get? key'

/-- A key is the last one, in the order of keys, that is cleaned to a column. -/
structure LastFor (task : NewTask) (column key : String) : Prop where
  mem : key ∈ task.extra.keys
  cleaned : columnName key = column
  last : ∀ key' ∈ task.extra.keys, columnName key' = column → ¬ key < key'

/-- Keys that have been cleaned before keep apart. -/
theorem keysApart_of_clean (h : ∀ key ∈ task.extra.keys, IsColumnName key) : task.KeysApart := by
  intro key hkey key' hkey' heq
  rwa [columnName_eq_self (h key hkey), columnName_eq_self (h key' hkey')] at heq

theorem KeysApart.agree (h : task.KeysApart) : task.KeysAgree := by
  intro key hkey key' hkey' heq
  rw [h key hkey key' hkey' heq]

theorem nodup_map_columnName_iff : (task.extra.keys.map columnName).Nodup ↔ task.KeysApart :=
  List.nodup_map_iff_inj_on (task.extra.keys_ascending.imp String.ne_of_lt)

end NewTask

/-- Of entries in the order of their keys, looked up from behind by the columns that these are
cleaned to, the last one for a column is found. -/
theorem Dict.lookup_reverse_cleaned {α : Type} {entries : List (String × α)}
    (hsorted : entries.Pairwise fun a b => a.1 < b.1) {key : String} {value : α}
    (hmem : (key, value) ∈ entries)
    (hlast : ∀ e ∈ entries, columnName e.1 = columnName key → ¬ key < e.1) :
    (entries.map fun e => (columnName e.1, e.2)).reverse.lookup (columnName key) = some value := by
  obtain ⟨before, later, rfl⟩ := List.append_of_mem hmem
  have hother : ∀ e ∈ later, columnName e.1 ≠ columnName key := by
    intro e he heq
    have hlt : key < e.1 := List.rel_of_pairwise_cons (List.pairwise_append.1 hsorted).2.1 he
    exact hlast e (by simp [he]) heq hlt
  refine List.lookup_eq_some_iff.2 ⟨(later.map fun e => (columnName e.1, e.2)).reverse,
    (before.map fun e => (columnName e.1, e.2)).reverse, by simp, fun e he => ?_⟩
  obtain ⟨entry, hentry, rfl⟩ := List.mem_map.1 (List.mem_reverse.1 he)
  exact bne_iff_ne.2 (hother entry hentry).symm

namespace NewTask

variable {task : NewTask} {column key : String}

/-- A task gives to a column the value of the last key for it. -/
theorem value?_eq_of_lastFor (h : task.LastFor column key) :
    task.value? column = task.extra.get? key := by
  obtain ⟨value, hvalue⟩ := Dict.mem_keys_iff.1 h.mem
  obtain rfl := h.cleaned
  rw [hvalue, value?]
  exact Dict.lookup_reverse_cleaned task.extra.sorted (Dict.mem_entries_iff.2 hvalue)
    fun e he => h.last e.1 (List.mem_map_of_mem he)

/-- A column that some key is cleaned to has a last key. -/
theorem exists_lastFor (h : key ∈ task.extra.keys) :
    ∃ last, task.LastFor (columnName key) last := by
  have hsome : (task.extra.keys.reverse.find? fun k => columnName k = columnName key).isSome :=
    List.find?_isSome.2 ⟨key, by simp [h]⟩
  obtain ⟨last, hfind⟩ := Option.isSome_iff_exists.1 hsome
  obtain ⟨hcleaned, later, before, heq, hlater⟩ := List.find?_eq_some_iff_append.1 hfind
  have hascending := List.pairwise_reverse.2 task.extra.keys_ascending
  rw [heq] at hascending
  have hbefore : ∀ key' ∈ before, key' < last := fun _ =>
    List.rel_of_pairwise_cons (List.pairwise_append.1 hascending).2.1
  have hmem {key' : String} : key' ∈ task.extra.keys ↔ key' ∈ later ++ last :: before := by
    rw [← heq, List.mem_reverse]
  refine ⟨last, hmem.2 (by simp), of_decide_eq_true hcleaned, fun key' hkey' hcolumn hlt => ?_⟩
  rcases List.mem_append.1 (hmem.1 hkey') with hkey' | hkey'
  · simpa [hcolumn] using hlater key' hkey'
  · rcases List.mem_cons.1 hkey' with rfl | hkey'
    · exact String.lt_irrefl _ hlt
    · exact String.lt_asymm hlt (hbefore key' hkey')

/-- Where keys that meet agree, a task gives to each column the value of any key for it. -/
theorem KeysAgree.value?_columnName (h : task.KeysAgree) {value : String}
    (hvalue : task.extra.get? key = some value) :
    task.value? (columnName key) = some value := by
  have hkey : key ∈ task.extra.keys := Dict.mem_keys_iff.2 ⟨value, hvalue⟩
  obtain ⟨last, hlast⟩ := exists_lastFor hkey
  rw [value?_eq_of_lastFor hlast, h last hlast.mem key hkey hlast.cleaned, hvalue]

end NewTask

/-! ### The columns of a row -/

namespace Schema

variable {s : Schema} {task : NewTask} {columns : List (String × String)}

/-- The columns of a schema without the extra ones. -/
def ownColumns (s : Schema) : List String :=
  [s.queueName, s.payload, s.createdAt, s.nextProcessAt, s.attempt, s.reenqueueAttempt,
    s.totalAttempt]

/-- The columns that an insertion lists even without extra values. -/
def rowColumns (s : Schema) (l : Location) : List String :=
  (l.idSequence.map fun _ => "id").toList ++ s.ownColumns

/-- The columns of resolved values are the cleaned keys. -/
theorem map_fst_of_resolveExtra (h : s.resolveExtra task.extra = .ok columns) :
    columns.map (·.1) = task.extra.keys.map columnName := by
  obtain ⟨-, rfl⟩ := resolveExtra_eq_ok_iff.1 h
  simp [Dict.keys]

theorem keysAvoid_iff (h : s.resolveExtra task.extra = .ok columns) (names : List String) :
    task.KeysAvoid names ↔ ∀ column ∈ columns.map (·.1), column ∉ names := by
  rw [map_fst_of_resolveExtra h, List.forall_mem_map]
  rfl

/-- Keys of declared columns avoid what is not declared. -/
theorem keysAvoid_of_declared (h : s.resolveExtra task.extra = .ok columns) {names : List String}
    (hnames : ∀ column ∈ s.extra, column ∉ names) : task.KeysAvoid names :=
  fun key hkey => hnames _ ((resolveExtra_eq_ok_iff.1 h).1 key hkey)

/-- An insertion lists no column twice exactly when the columns of the row are different and the
keys keep apart from them and from each other. -/
theorem nodup_columnParts_iff (h : s.resolveExtra task.extra = .ok columns) (l : Location) :
    (Sql.insertStatement s l task columns).columnParts.Nodup ↔
      (s.rowColumns l).Nodup ∧ task.KeysApart ∧ task.KeysAvoid (s.rowColumns l) := by
  have hnames : (Sql.insertEntries s l (columns.map (·.1))).map (·.1)
      = s.rowColumns l ++ columns.map (·.1) := Sql.map_fst_insertEntries s l _
  have hinjective : Function.Injective fun c => [Sql.Piece.name c] := fun c c' heq => by
    simpa using heq
  rw [Sql.columnParts_insert, List.nodup_map_iff hinjective, hnames, List.nodup_append',
    keysAvoid_iff h, map_fst_of_resolveExtra h, NewTask.nodup_map_columnName_iff,
    List.disjoint_comm]
  rfl

end Schema

/-! ### The row that is added -/

namespace Store

variable {s : Store} {task : NewTask} {columns : List (String × String)}

/-- A task whose columns are declared becomes a row, which is found under its identifier. -/
theorem get?_enqueue (h : s.schema.resolveExtra task.extra = .ok columns) (now : Instant)
    (l : Location) : (s.enqueue now l task).1 = .ok (s.lastId + 1) ∧
      (s.enqueue now l task).2.get? l (s.lastId + 1)
        = some (s.newRow now l task columns (s.lastId + 1)).record := by
  have henqueue : s.enqueue now l task = (.ok (s.lastId + 1), (s.insert now l task columns).2) := by
    rw [enqueue, h]
    rfl
  have hrow : (s.insert now l task columns).2.row? l (s.lastId + 1)
      = some (s.newRow now l task columns (s.lastId + 1)) := by
    refine row?_eq_some_iff.2 ⟨?_, rfl, ?_⟩
    · simp [rows_insert]
    · simp [newRow, Row.isAt]
  rw [henqueue]
  exact ⟨rfl, congrArg (Option.map _) hrow⟩

/-- A new row holds in each column the value of the last key for it. -/
theorem get?_newColumns_of_lastFor {schema : Schema}
    (h : schema.resolveExtra task.extra = .ok columns) {column key : String}
    (hkey : task.LastFor column key) :
    (newColumns schema columns).get? column = some (task.extra.get? key) := by
  have hdeclared : column ∈ schema.extra :=
    hkey.cleaned ▸ (Schema.resolveExtra_eq_ok_iff.1 h).1 key hkey.mem
  rw [get?_newColumns h, if_pos hdeclared, NewTask.value?_eq_of_lastFor hkey]

/-- A new row holds every value that was given exactly when keys for one column have one value. -/
theorem keeps_values_iff {schema : Schema} (h : schema.resolveExtra task.extra = .ok columns) :
    (∀ key value, task.extra.get? key = some value →
      (newColumns schema columns).get? (columnName key) = some (some value)) ↔ task.KeysAgree := by
  constructor
  · intro hkept key hkey key' hkey' heq
    obtain ⟨value, hvalue⟩ := Dict.mem_keys_iff.1 hkey
    obtain ⟨value', hvalue'⟩ := Dict.mem_keys_iff.1 hkey'
    have hheld := hkept key value hvalue
    rw [heq, hkept key' value' hvalue', Option.some.injEq] at hheld
    rw [hvalue, hvalue', hheld]
  · intro hagree key value hvalue
    obtain ⟨hdeclared, -⟩ := Schema.resolveExtra_eq_ok_iff.1 h
    have hkey : key ∈ task.extra.keys := Dict.mem_keys_iff.2 ⟨value, hvalue⟩
    rw [get?_newColumns h, if_pos (hdeclared key hkey), hagree.value?_columnName hvalue]

end Store

/-- What becomes of the values of a task in the record of its row: a column holds the value of the
last of its keys, and all values are kept exactly when keys for one column have one value. -/
structure TaskRecord.HoldsLast (task : NewTask) (r : TaskRecord) : Prop where
  last : ∀ key ∈ task.extra.keys, ∃ last, task.LastFor (columnName key) last ∧
    r.extra.get? (columnName key) = some (task.extra.get? last)
  all_iff : (∀ key value, task.extra.get? key = some value →
    r.extra.get? (columnName key) = some (some value)) ↔ task.KeysAgree

section

variable {s : Schema} {task : NewTask} {columns : List (String × String)}

/-- **Columns are named once exactly when the keys keep apart.** The extra columns of a task are all
declared. They are different exactly when no two keys are cleaned to one of them, and differ from
the columns of the schema exactly when no key is cleaned to one of these. An insertion lists no
column twice exactly when both are so, also for the column of the identifier where that is listed,
and the columns of the schema are different; for this it is enough that the keys have been cleaned
before and that no column of the row is declared as an extra one. A store in memory accepts the
task in any case; of values that meet in a column it keeps the one of the last key, so that it keeps
all values exactly when those that meet are equal. -/
theorem columns_named_once_iff (h : s.resolveExtra task.extra = .ok columns) :
    ((columns.map (·.1)).Nodup ↔ task.KeysApart) ∧
    ((∀ column ∈ columns.map (·.1), column ∉ s.ownColumns) ↔ task.KeysAvoid s.ownColumns) ∧
    (∀ l, (Sql.insertStatement s l task columns).columnParts.Nodup ↔
      (s.rowColumns l).Nodup ∧ task.KeysApart ∧ task.KeysAvoid (s.rowColumns l)) ∧
    (∀ l, (s.rowColumns l).Nodup → (∀ column ∈ s.extra, column ∉ s.rowColumns l) →
      (∀ key ∈ task.extra.keys, IsColumnName key) →
      (Sql.insertStatement s l task columns).columnParts.Nodup) ∧
    ∀ (x : Store) (now : Instant) (l : Location), x.schema = s → ∃ record : TaskRecord,
      (x.enqueue now l task).1 = .ok record.id ∧
      (x.enqueue now l task).2.get? l record.id = some record ∧ record.HoldsLast task := by
  refine ⟨?_, (Schema.keysAvoid_iff h _).symm, Schema.nodup_columnParts_iff h, ?_, ?_⟩
  · rw [Schema.map_fst_of_resolveExtra h, NewTask.nodup_map_columnName_iff]
  · intro l hrow hextra hclean
    exact (Schema.nodup_columnParts_iff h l).2
      ⟨hrow, NewTask.keysApart_of_clean hclean, Schema.keysAvoid_of_declared h hextra⟩
  · rintro x now l rfl
    obtain ⟨hid, hrow⟩ := Store.get?_enqueue h now l
    refine ⟨(x.newRow now l task columns (x.lastId + 1)).record, hid, hrow, fun key hkey => ?_,
      Store.keeps_values_iff h⟩
    obtain ⟨last, hlast⟩ := NewTask.exists_lastFor hkey
    exact ⟨last, hlast, Store.get?_newColumns_of_lastFor h hlast⟩

end

namespace Schema

/-- Columns with an extra one that is called like the column of the payload. -/
def shadowed : Schema := (withExtra {} "note").withExtra "payload"

/-- A task with a value for a column that is called like the one of the payload. -/
def shadowing : NewTask where
  payload := some "two pounds"
  extra := .ofList [("pay load", "none"), ("note", "gift")]

/-- A store in memory to which the task is added. -/
def shadowingAdded : Except StoreError Int × Store :=
  (Store.empty shadowed).enqueue .epoch (.of "orders" "tasks") shadowing

/-- The keys keep apart, but one is cleaned to a column of the schema: an insertion lists that
column twice, and in memory both values are kept. -/
theorem payload_is_listed_twice :
    shadowed.resolveExtra shadowing.extra = .ok [("note", "gift"), ("payload", "none")] ∧
    shadowing.KeysApart ∧
    (∀ l, ¬ (Sql.insertStatement shadowed l shadowing
      [("note", "gift"), ("payload", "none")]).columnParts.Nodup) ∧
    ∃ record : TaskRecord, shadowingAdded.1 = .ok record.id ∧
      shadowingAdded.2.get? (.of "orders" "tasks") record.id = some record ∧
      record.extra.get? "note" = some (some "gift") ∧
      record.extra.get? "payload" = some (some "none") := by
  have hextra : shadowed.resolveExtra shadowing.extra
      = .ok [("note", "gift"), ("payload", "none")] := by decide +kernel
  obtain ⟨hdistinct, -, hlisted, -, hmemory⟩ := columns_named_once_iff hextra
  have hapart : shadowing.KeysApart := hdistinct.1 (by decide)
  obtain ⟨record, hid, hget, hholds⟩ :=
    hmemory (.empty shadowed) .epoch (.of "orders" "tasks") rfl
  have hkept := hholds.all_iff.2 hapart.agree
  refine ⟨hextra, hapart, fun l hnodup => ?_, record, hid, hget, ?_, ?_⟩
  · -- every row has a column for the payload
    refine ((hlisted l).1 hnodup).2.2 "pay load" (by decide +kernel) ?_
    exact List.mem_append_right _ (by decide +kernel)
  · exact hkept "note" "gift" (by decide +kernel)
  · exact hkept "pay load" "none" (by decide +kernel)

/-- Columns with an extra one for tenants. -/
def tenantColumns : Schema := withExtra {} "tenantid"

/-- A task with two keys that are cleaned to the column for tenants. -/
def twoTenants : NewTask where
  extra := .ofList [("tenant id", "1"), ("tenantid", "2")]

/-- Two keys that are cleaned to one declared column are accepted. The insertion names the column
twice, and in memory the first value is lost. -/
theorem cleaned_keys_meet :
    tenantColumns.Built ∧ twoTenants.extra.keys = ["tenant id", "tenantid"] ∧
    tenantColumns.resolveExtra twoTenants.extra = .ok [("tenantid", "1"), ("tenantid", "2")] ∧
    ¬ ([("tenantid", "1"), ("tenantid", "2")].map (·.1)).Nodup ∧
    (Sql.insertStatement tenantColumns (.of "orders" "tasks") twoTenants
        [("tenantid", "1"), ("tenantid", "2")]).text =
      "INSERT INTO tasks (queue_name, payload, created_at, next_process_at, attempt, " ++
      "reenqueue_attempt, total_attempt, tenantid, tenantid) VALUES ($1, $2, now(), now() + " ++
      "$3::float8 * interval '1 millisecond', 0, 0, 0, $4, $5) RETURNING id" ∧
    (((Store.empty tenantColumns).enqueue .epoch (.of "orders" "tasks") twoTenants).2.get?
      (.of "orders" "tasks") 1).map (·.extra.entries) = some [("tenantid", some "2")] := by
  refine ⟨.withExtra .default _, ?_, ?_, ?_, ?_, ?_⟩ <;> decide +kernel

end Schema

end DurableQueue
