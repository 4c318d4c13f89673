import DurableQueue.Settings.Json
import DurableQueue.Store.Sql.Query
import Mathlib

/-!
# Where the names of tables and sequences come from

A location is built from names, which are cleaned, or decoded from a document, whose names are left
as they are.

* `Json.Writes` says that a record in a document has a value in a field, by name or by place;
* `Origin` lists the ways to come by a location, and `Origin.location?` gives the location;
* `clean_iff_documents_are`: a location is clean exactly when the names are that it still has from a
  document;
* `decoded_table_is_not_clean` is about such a name that is not, and that reaches a statement.
-/

namespace DurableQueue

/-! ### Records in documents -/

namespace Json

/-- A record has a value in a field: in an object by the name of the field, in an array by its
place. -/
inductive Writes : Json → String → Nat → Json → Prop
  | field {fields : List (String × Json)} {name : String} {place : Nat} {j : Json}
      (h : (name, j) ∈ fields) : Writes (.object fields) name place j
  | item {items : List Json} {name : String} {place : Nat} {j : Json}
      (h : items[place]? = some j) : Writes (.array items) name place j

theorem mem_valuesOf_iff {name : String} {fields : List (String × Json)} {j : Json} :
    j ∈ valuesOf name fields ↔ (name, j) ∈ fields := by
  simp only [valuesOf, List.mem_filterMap]
  constructor
  · rintro ⟨⟨n, v⟩, hmem, heq⟩
    split at heq
    · cases heq
      simp_all
    · cases heq
  · intro h
    exact ⟨(name, j), h, if_pos rfl⟩

theorem getElem?_of_mapM {α β : Type} {f : α → Option β} {as : List α} {bs : List β}
    (h : as.mapM f = some bs) {i : Nat} {a : α} (ha : as[i]? = some a) :
    ∃ b, f a = some b ∧ bs[i]? = some b := by
  induction as generalizing bs i with
  | nil => cases ha
  | cons first as ih =>
    simp only [List.mapM_cons, Option.bind_eq_bind, Option.bind_eq_some_iff] at h
    obtain ⟨b, hb, bs', hbs, heq⟩ := h
    cases heq
    cases i with
    | zero =>
      cases ha
      exact ⟨b, hb, rfl⟩
    | succ i => exact ih hbs ha

/-- What is decoded of a record are the values that it has in its fields. -/
theorem asRecord?_writes {names : List String} {required : Nat} {j : Json}
    {values : List (Option Json)} (h : asRecord? names required j = some values) (place : Nat)
    (name : String) (hname : names[place]? = some name) (v : Json) :
    values[place]? = some (some v) ↔ j.Writes name place v := by
  cases j with
  | object fields =>
    have hwrites : (Json.object fields).Writes name place v ↔ v ∈ valuesOf name fields := by
      rw [mem_valuesOf_iff]
      exact ⟨fun hv => by cases hv; assumption, .field⟩
    obtain ⟨value, hvalue, hplace⟩ := getElem?_of_mapM h hname
    rw [hwrites, hplace, Option.some.injEq]
    split at hvalue
    next hnone =>
      cases hvalue
      simp [hnone]
    next j hone =>
      cases hvalue
      simp [hone, eq_comm]
    · cases hvalue
  | array items =>
    have hwrites : (Json.array items).Writes name place v ↔ items[place]? = some v :=
      ⟨fun hv => by cases hv; assumption, .item⟩
    simp only [asRecord?] at h
    split at h
    · cases h
      rw [hwrites, List.getElem?_append]
      split
      next hlt => simp
      next hge =>
        rw [List.length_map, Nat.not_lt] at hge
        simp [List.getElem?_replicate, List.getElem?_eq_none hge]
    · cases h
  | _ => cases h

end Json

/-! ### Origins -/

namespace Location

open JsonCodec (decodeText?)

/-- The ways to come by a location. -/
inductive Origin
  | built (queue : QueueId) (table : String)
  | decoded (document : String)
  | sequenced (origin : Origin) (sequence : String)

namespace Origin

/-- The location of an origin, unless its document cannot be decoded. -/
def location? : Origin → Option Location
  | .built queue table => some (.of queue table)
  | .decoded document => decodeText? document
  | .sequenced origin sequence => origin.location?.map fun l => l.withIdSequence sequence

/-- The table has its name from a document. -/
def HasTable (name : String) : Origin → Prop
  | .built _ _ => False
  | .decoded document => ∃ j, Json.read? document = some j ∧ j.Writes "table_name" 1 (.text name)
  | .sequenced origin _ => origin.HasTable name

/-- The sequence has its name from a document. -/
def HasSequence (name : String) : Origin → Prop
  | .decoded document => ∃ j, Json.read? document = some j ∧ j.Writes "id_sequence" 2 (.text name)
  | _ => False

end Origin

theorem field?_asText?_eq_some {j : Option Json} {s : String} :
    Json.field? Json.asText? j = some s ↔ j = some (.text s) := by
  rcases j with _ | (_ | _ | _ | _ | _ | _ | _ | _) <;> simp [Json.field?, Json.asText?]

theorem optionalField?_asText?_eq_some {j : Option Json} {s : Option String}
    (h : Json.optionalField? Json.asText? j = some s) (name : String) :
    j = some (.text name) ↔ s = some name := by
  rcases j with _ | (_ | _ | _ | _ | _ | _ | _ | _) <;>
    simp_all [Json.optionalField?, Json.asOption?, Json.asText?]
  all_goals (subst h; simp)

/-- A location is decoded with the names that are written. -/
theorem writes_of_decode {j : Json} {l : Location} (h : JsonCodec.decode? j = some l)
    (name : String) :
    (j.Writes "table_name" 1 (.text name) ↔ l.table = name) ∧
      (j.Writes "id_sequence" 2 (.text name) ↔ l.idSequence = some name) := by
  simp only [JsonCodec.decode?, Option.bind_eq_bind, Option.bind_eq_some_iff] at h
  obtain ⟨values, hvalues, h⟩ := h
  have hwrites := Json.asRecord?_writes hvalues
  split at h
  next queue table sequence =>
    simp only [Option.bind_eq_some_iff] at h
    obtain ⟨q, -, t, ht, s, hs, hl⟩ := h
    cases hl
    rw [field?_asText?_eq_some] at ht
    rw [← hwrites 1 "table_name" rfl, ← hwrites 2 "id_sequence" rfl, ht]
    refine ⟨by simp, ?_⟩
    simpa using optionalField?_asText?_eq_some hs name
  · cases h

namespace Origin

variable {o : Origin} {l : Location}

theorem isTableName_table_iff (h : o.location? = some l) :
    Identifier.IsTableName l.table ↔ ∀ name, o.HasTable name → Identifier.IsTableName name := by
  induction o generalizing l with
  | built queue table =>
    cases h
    exact iff_of_true (Identifier.isTableName_tableName table) fun _ hname => hname.elim
  | decoded document =>
    obtain ⟨j, hj, hl⟩ := Option.bind_eq_some_iff.1 h
    constructor
    · rintro hclean name ⟨j', hj', hname⟩
      rw [hj] at hj'
      cases hj'
      rwa [← ((writes_of_decode hl name).1.1 hname)]
    · intro hclean
      exact hclean _ ⟨j, hj, (writes_of_decode hl _).1.2 rfl⟩
  | sequenced o sequence ih =>
    obtain ⟨before, hbefore, rfl⟩ := Option.map_eq_some_iff.1 h
    exact ih (l := before) hbefore

theorem isTableName_sequence_iff (h : o.location? = some l) :
    (∀ name, l.idSequence = some name → Identifier.IsTableName name) ↔
      ∀ name, o.HasSequence name → Identifier.IsTableName name := by
  cases o with
  | built queue table =>
    cases h
    exact iff_of_true nofun nofun
  | decoded document =>
    obtain ⟨j, hj, hl⟩ := Option.bind_eq_some_iff.1 h
    refine forall_congr' fun name => imp_congr_left ?_
    rw [← (writes_of_decode hl name).2]
    constructor
    · intro hname
      exact ⟨j, hj, hname⟩
    · rintro ⟨j', hj', hname⟩
      rw [hj] at hj'
      cases hj'
      exact hname
  | sequenced o sequence =>
    obtain ⟨before, -, rfl⟩ := Option.map_eq_some_iff.1 h
    refine iff_of_true ?_ nofun
    rintro name hname
    cases hname
    exact Identifier.isTableName_tableName sequence

/-- **Only documents bring in names that are not clean.** However a location was come by, it is
clean exactly when the names are that it still has from a document. -/
theorem clean_iff_documents_are (h : o.location? = some l) :
    l.IsClean ↔ ∀ name, o.HasTable name ∨ o.HasSequence name → Identifier.IsTableName name := by
  rw [Location.IsClean, isTableName_table_iff h, isTableName_sequence_iff h]
  constructor
  · rintro ⟨htable, hsequence⟩ name (hname | hname)
    · exact htable name hname
    · exact hsequence name hname
  · intro hclean
    exact ⟨fun name hname => hclean name (.inl hname), fun name hname => hclean name (.inr hname)⟩

/-- A document with a sequence that is not clean, in place of which another one is given. -/
def replaced : Origin := .sequenced (.decoded "[\"orders\",\"tasks\",\"a b\"]") "numbers;"

theorem replaced_is_clean : ∃ l, replaced.location? = some l ∧ l.IsClean := by
  have hl : replaced.location? = some ⟨"orders", "tasks", some "numbers"⟩ := by cbv
  have hread : Json.read? "[\"orders\",\"tasks\",\"a b\"]"
      = some (.array [.text "orders", .text "tasks", .text "a b"]) := by cbv
  have htasks : Identifier.tableName "tasks" = "tasks" := by cbv
  refine ⟨_, hl, (clean_iff_documents_are hl).2 ?_⟩
  rintro name (⟨j, hj, hname⟩ | hname)
  · rw [hread] at hj
    cases hj
    cases hname with
    | item h =>
      cases h
      rw [← htasks]
      exact Identifier.isTableName_tableName "tasks"
  · exact hname.elim

/-- A document with a statement in place of the name of a table. -/
def smuggling : Origin :=
  .decoded ("\x7b\"queue_id\":\"orders\",\"table_name\":\"tasks; DROP TABLE users\"," ++
    "\"id_sequence\":null\x7d")

/-- The location that is decoded is not clean, and what is in place of its table becomes a part of
the statements of the queue. -/
theorem decoded_table_is_not_clean : ∃ l, smuggling.location? = some l ∧ ¬ l.IsClean ∧
    (Sql.deleteStatement {} l 1).text
      = "DELETE FROM tasks; DROP TABLE users WHERE queue_name = $1 AND id = $2" := by
  have hl : smuggling.location? = some ⟨"orders", "tasks; DROP TABLE users", none⟩ := by cbv
  refine ⟨_, hl, fun hclean => ?_, by cbv⟩
  have hsemicolon := hclean.1 ';' (by decide)
  revert hsemicolon
  decide

end Origin

end Location

end DurableQueue
