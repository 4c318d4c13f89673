import DurableQueue.Dict
import DurableQueue.Text.Shown

/-!
# Groups of settings

A group of settings has a name and can list how two of its values differ.

* `SettingGroup` is the class of groups;
* `fieldDifference` is the entry for one field, if it differs;
* `SettingGroup.summary` is the line that reports a change of a group;
* `SettingError` says why a group was not changed.
-/

namespace DurableQueue

/-- A group of settings: its name, and the fields in which a new value differs from an old one. -/
class SettingGroup (α : Type) extends BEq α, LawfulBEq α where
  groupName : String
  differences : α → α → List String

/-- The entry for a field that has changed. -/
def fieldDifference {α : Type} [DecidableEq α] (name : String) (shown : α → String)
    (old new : α) : Option String :=
  if old = new then none else some (name ++ "=" ++ shown old ++ "->" ++ shown new)

/-- The line that reports a change: the name of the group and the changed fields. -/
def SettingGroup.summary {α : Type} [SettingGroup α] (old new : α) : String :=
  SettingGroup.groupName α ++ "(" ++ String.intercalate "," (differences old new) ++ ")"

/-- Why a group of settings was not changed. -/
inductive SettingError
  | rejected (setting reason : String)
  | invalid (setting reason : String)
  deriving DecidableEq, Repr

/-- The wording of a setting error. -/
def SettingError.message : SettingError → String
  | .rejected setting reason => "observer rejected " ++ setting ++ " update: " ++ reason
  | .invalid setting reason => "invalid " ++ setting ++ ": " ++ reason

end DurableQueue
