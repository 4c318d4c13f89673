import DurableQueue.Text.Quoted

/-!
# Shown values

How differences and log lines show values that may be absent and values that are listed.

* `shownOption` writes `None` or `Some(…)`;
* `shownList` writes the values between square brackets.
-/

namespace DurableQueue.Text

/-- A value that may be absent. -/
def shownOption {α : Type} (f : α → String) : Option α → String
  | none => "None"
  | some a => "Some(" ++ f a ++ ")"

/-- Values between square brackets. -/
def shownList {α : Type} (f : α → String) (as : List α) : String :=
  "[" ++ String.intercalate ", " (as.map f) ++ "]"

end DurableQueue.Text
