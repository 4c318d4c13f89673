import DurableQueue.Dict
import DurableQueue.Text.Blank
import DurableQueue.Text.Split

/-!
# Properties text

Configuration files hold one property a line, a key and a value with `=` or `:` between them.
Blank lines, lines that start with `#` or `!`, lines without separator and lines without a key
say nothing.

* `Properties.ofLine?` is the property that a line gives, and `Properties.definitions` lists those
  of a text;
* `Properties.parse` collects the properties of a text; of those with the same key the last one
  counts.
-/

namespace DurableQueue.Properties

open Text (pieces trim splitOnce)

/-- The property that a line gives. -/
def ofLine? (line : List Char) : Option (String × String) :=
  match trim line with
  | [] => none
  | c :: cs =>
    if c = '#' ∨ c = '!' then none
    else match splitOnce (fun c => c == '=' || c == ':') (c :: cs) with
      | none => none
      | some (key, value) =>
        match trim key with
        | [] => none
        | key => some (String.ofList key, String.ofList (trim value))

/-- The properties that the lines of a text give, in their order. -/
def definitions (text : List Char) : List (String × String) := (pieces '\n' text).filterMap ofLine?

/-- The properties of a text. -/
def parse (text : String) : Dict String := Dict.ofList (definitions text.toList)

/-- The properties of a text that follows another one on a new line come behind those of the
first. -/
theorem definitions_append (a b : List Char) :
    definitions (a ++ '\n' :: b) = definitions a ++ definitions b := by
  simp [definitions, Text.pieces_append]

end DurableQueue.Properties
