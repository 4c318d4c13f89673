import DurableQueue.Count
import DurableQueue.Settings.Group

/-!
# Processing settings

The number of worker threads of a queue and the way its tasks are processed.

* `ProcessingMode` says where the borders of transactions run;
* `ProcessingMode.parse` reads the name of a mode.
-/

namespace DurableQueue

/-- How the picking and the processing of a task share transactions. -/
inductive ProcessingMode
  /-- The task is picked in one transaction and its result applied in another. -/
  | separateTransactions
  /-- One transaction spans picking, processing and the result. -/
  | wrapInTransaction
  /-- The task is picked in a transaction and processed by an executor of the consumer. -/
  | useExternalExecutor
  deriving DecidableEq, Repr

namespace ProcessingMode

/-- The name of a mode in configuration. -/
def name : ProcessingMode → String
  | .separateTransactions => "separate-transactions"
  | .wrapInTransaction => "wrap-in-transaction"
  | .useExternalExecutor => "use-external-executor"

/-- The name of a mode in differences. -/
def label : ProcessingMode → String
  | .separateTransactions => "SeparateTransactions"
  | .wrapInTransaction => "WrapInTransaction"
  | .useExternalExecutor => "UseExternalExecutor"

/-- All modes. -/
def all : List ProcessingMode := [.separateTransactions, .wrapInTransaction, .useExternalExecutor]

/-- Read the name of a mode. -/
def parse (s : String) : Except String ProcessingMode :=
  match all.find? (·.name == s) with
  | some m => .ok m
  | none => .error ("unknown processing mode: " ++ s)

theorem parse_name (m : ProcessingMode) : parse m.name = .ok m := by cases m <;> rfl

end ProcessingMode

/-- Thread count and processing mode of a queue. -/
structure ProcessingSettings where
  threadCount : Count := Count.one
  mode : ProcessingMode := .separateTransactions
  deriving DecidableEq, Repr

namespace ProcessingSettings

instance : Inhabited ProcessingSettings := ⟨{}⟩

/-- The fields in which two values differ, in the order of the fields. -/
def differences (old new : ProcessingSettings) : List String :=
  [fieldDifference "thread_count" Count.text old.threadCount new.threadCount,
   fieldDifference "processing_mode" ProcessingMode.label old.mode new.mode].filterMap id

instance : SettingGroup ProcessingSettings where
  groupName := "processing"
  differences := differences

end ProcessingSettings

end DurableQueue
