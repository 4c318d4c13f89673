import DurableQueue.Settings.Group
import DurableQueue.Time.DelayText

/-!
# Poll settings

The pauses of a worker between two looks at its queue.
-/

namespace DurableQueue

/-- The pauses of a worker: after a task, after finding none, and after a failed iteration. -/
structure PollSettings where
  betweenTasks : Delay := Delay.ofMillis 100
  noTask : Delay := Delay.ofSeconds 1
  fatalCrash : Delay := Delay.ofSeconds 1
  deriving DecidableEq, Repr

namespace PollSettings

instance : Inhabited PollSettings := ⟨{}⟩

/-- The fields in which two values differ, in the order of the fields. -/
def differences (old new : PollSettings) : List String :=
  [fieldDifference "between_task_timeout" Delay.brief old.betweenTasks new.betweenTasks,
   fieldDifference "no_task_timeout" Delay.brief old.noTask new.noTask,
   fieldDifference "fatal_crash_timeout" Delay.brief old.fatalCrash new.fatalCrash].filterMap id

instance : SettingGroup PollSettings where
  groupName := "poll"
  differences := differences

end PollSettings

end DurableQueue
