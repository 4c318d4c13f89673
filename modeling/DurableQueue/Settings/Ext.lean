import DurableQueue.Settings.Group

/-!
# Additional settings

Settings of a queue that this library does not interpret, by their names.
-/

namespace DurableQueue

open Text (quoted)

/-- Additional settings by their names. -/
structure ExtSettings where
  values : Dict String := Dict.empty
  deriving DecidableEq, Repr

namespace ExtSettings

instance : Inhabited ExtSettings := ⟨{}⟩

/-- The value of an additional setting. -/
def get? (s : ExtSettings) (key : String) : Option String := s.values.get? key

/-- The names that differ: changed and removed ones in ascending order, then added ones in
ascending order. -/
def differences (old new : ExtSettings) : List String :=
  let changed := old.values.entries.filterMap fun (key, was) =>
    match new.values.get? key with
    | some is => if is = was then none else some (key ++ "=" ++ quoted was ++ "->" ++ quoted is)
    | none => some (key ++ "=" ++ quoted was ++ "->None")
  let added := new.values.entries.filterMap fun (key, is) =>
    if old.values.contains key then none else some (key ++ "=None->" ++ quoted is)
  changed ++ added

instance : SettingGroup ExtSettings where
  groupName := "ext"
  differences := differences

end ExtSettings

end DurableQueue
