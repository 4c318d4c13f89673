import DurableQueue.Text.Identifier

/-!
# Queues and their places

* `QueueId` and `ShardId` name queues and shards;
* `Location.of` places a queue in a table, and `Location.withIdSequence` gives the sequence that
  feeds the identifiers of its rows; both clean the names they are given;
* `Location.IsClean` says that the names hold only characters of table names, and
  `isClean_of`, `isClean_withIdSequence` that locations built this way are clean.
-/

namespace DurableQueue

/-- The name of a queue. -/
abbrev QueueId := String

/-- The name of a shard, a store that holds a part of the tasks. -/
abbrev ShardId := String

/-- The place of a queue: its table, and the sequence for the identifiers of new rows, if any. -/
structure Location where
  queue : QueueId
  table : String
  idSequence : Option String := none
  deriving DecidableEq, Repr

namespace Location

instance : Inhabited Location := ⟨⟨"", "", none⟩⟩

/-- The place of a queue in a table. -/
def of (queue : QueueId) (table : String) : Location := ⟨queue, Identifier.tableName table, none⟩

/-- The same place, with a sequence for the identifiers. -/
def withIdSequence (l : Location) (sequence : String) : Location :=
  { l with idSequence := some (Identifier.tableName sequence) }

/-- A location as log lines show it. -/
def text (l : Location) : String :=
  "\x7bid=" ++ l.queue ++ ",table=" ++ l.table ++
    (match l.idSequence with
      | some s => ",idSequence=" ++ s
      | none => "") ++ "\x7d"

/-- The names of table and sequence hold only characters of table names. -/
def IsClean (l : Location) : Prop :=
  Identifier.IsTableName l.table ∧ ∀ s, l.idSequence = some s → Identifier.IsTableName s

theorem isClean_of (queue : QueueId) (table : String) : (of queue table).IsClean :=
  ⟨Identifier.isTableName_tableName table, fun _ h => nomatch h⟩

theorem isClean_withIdSequence {l : Location} (h : l.IsClean) (sequence : String) :
    (l.withIdSequence sequence).IsClean :=
  ⟨h.1, fun _ hs => by cases hs; exact Identifier.isTableName_tableName sequence⟩

end Location

end DurableQueue
