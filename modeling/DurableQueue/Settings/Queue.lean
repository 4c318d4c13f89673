import DurableQueue.Settings.Ext
import DurableQueue.Settings.Failure
import DurableQueue.Settings.Location
import DurableQueue.Settings.Poll
import DurableQueue.Settings.Processing
import DurableQueue.Settings.Reenqueue

/-!
# The settings of a queue

The five groups of settings of a queue, and a queue's configuration, which adds its place.

* `GroupValue` is a value for one of the groups, and `QueueSettings.withGroup` puts it in its place;
* `QueueSettings` and `QueueConfig` are values. What is held by reference is in `Settings.Live`.
-/

namespace DurableQueue

/-- The five groups of settings of a queue. -/
structure QueueSettings where
  processing : ProcessingSettings := {}
  poll : PollSettings := {}
  failure : FailureSettings := {}
  reenqueue : ReenqueueSettings := {}
  ext : ExtSettings := {}
  deriving DecidableEq, Repr

instance : Inhabited QueueSettings := ⟨{}⟩

/-- The place and the settings of a queue. -/
structure QueueConfig where
  location : Location
  settings : QueueSettings
  deriving DecidableEq, Repr

/-- The groups. -/
inductive Group
  | processing
  | poll
  | failure
  | reenqueue
  | ext
  deriving DecidableEq, Repr

/-- The name of a group. -/
def Group.name : Group → String
  | .processing => SettingGroup.groupName ProcessingSettings
  | .poll => SettingGroup.groupName PollSettings
  | .failure => SettingGroup.groupName FailureSettings
  | .reenqueue => SettingGroup.groupName ReenqueueSettings
  | .ext => SettingGroup.groupName ExtSettings

/-- All groups. -/
def Group.all : List Group := [.processing, .poll, .failure, .reenqueue, .ext]

/-- The group with a name. -/
def Group.ofName? (name : String) : Option Group := Group.all.find? fun g => g.name = name

/-- A value for one of the groups. -/
inductive GroupValue
  | processing (v : ProcessingSettings)
  | poll (v : PollSettings)
  | failure (v : FailureSettings)
  | reenqueue (v : ReenqueueSettings)
  | ext (v : ExtSettings)
  deriving DecidableEq, Repr

/-- The group that a value is for. -/
def GroupValue.group : GroupValue → Group
  | .processing _ => .processing
  | .poll _ => .poll
  | .failure _ => .failure
  | .reenqueue _ => .reenqueue
  | .ext _ => .ext

/-- The same settings with another value for one of the groups. -/
def QueueSettings.withGroup (s : QueueSettings) : GroupValue → QueueSettings
  | .processing v => { s with processing := v }
  | .poll v => { s with poll := v }
  | .failure v => { s with failure := v }
  | .reenqueue v => { s with reenqueue := v }
  | .ext v => { s with ext := v }

end DurableQueue
