import DurableQueue.Settings.Group
import DurableQueue.Time.Literal

/-!
# Problems of a configuration

* `Fault` says what is wrong with one setting;
* `Problem` adds where: a setting of a queue, or a key that names none;
* `Problem.line` is the line that reports a problem.
-/

namespace DurableQueue.Config

open Text (quoted)

/-- What is wrong with a setting. -/
inductive Fault
  | unknown
  | required
  | literal (e : Literal.Invalid)
  | value (raw reason : String)
  | requiredByType
  | unusedByType
  | emptyPlan
  | inconsistent (e : SettingError)
  deriving DecidableEq, Repr

/-- The wording of a fault. -/
def Fault.message : Fault → String
  | .unknown => "unknown setting"
  | .required => "setting is required"
  | .literal e => e.message
  | .value raw reason => "cannot parse " ++ quoted raw ++ ": " ++ reason
  | .requiredByType => "setting is required for this reenqueue-retry-type"
  | .unusedByType => "setting is not used by this reenqueue-retry-type"
  | .emptyPlan => "plan must not be empty"
  | .inconsistent e => e.message

/-- A wrong setting of a queue. -/
structure SettingFault where
  setting : String
  fault : Fault
  deriving DecidableEq, Repr

/-- A problem of a configuration. -/
inductive Problem
  /-- A key below the prefix that names no setting of a queue. -/
  | malformedKey (key : String)
  /-- A wrong setting of a queue. -/
  | setting (queue : String) (fault : SettingFault)
  deriving DecidableEq, Repr

/-- The line that reports a problem of a configuration below a prefix. -/
def Problem.line (keyPrefix : String) : Problem → String
  | .malformedKey key => key ++ ": expected " ++ keyPrefix ++ ".<queue id>.<setting>"
  | .setting queue f =>
    keyPrefix ++ "." ++ queue ++ "." ++ f.setting ++ ": " ++ f.fault.message

end DurableQueue.Config
