import DurableQueue.Text.Decimal
import DurableQueue.Text.Identifier
import DurableQueue.Text.Split
import DurableQueue.Time.Delay

/-!
# Statements

A statement is a text with places for values, which are sent beside the text and never within it.

* `Piece` is a part of a statement: fixed words, a name, or the place of a value;
* `Statement.text` is the text that is sent, in which no blank follows another one;
* `Statement.slots` lists the numbers of the places, and `Statement.names` the names.
-/

namespace DurableQueue.Sql

/-- A part of the text of a statement. -/
inductive Piece
  | words (s : String)
  | name (s : String)
  | slot (n : Nat)
  deriving DecidableEq, Repr

/-- A value that is sent with a statement. -/
inductive Value
  | text (s : Option String)
  | number (n : Int)
  | millis (d : Delay)
  deriving DecidableEq, Repr

/-- A statement: the parts of its text, and the values from the first place on. -/
structure Statement where
  pieces : List Piece
  values : List Value := []
  deriving DecidableEq, Repr

/-- The text of a part. -/
def Piece.text : Piece → List Char
  | .words s => s.toList
  | .name s => s.toList
  | .slot n => '$' :: Decimal.digits n

/-- The words of a text, with one blank between any two of them. -/
def collapse (cs : List Char) : List Char :=
  Text.join [' '] ((Text.pieces ' ' cs).filter (· ≠ []))

namespace Statement

/-- The text that is sent. -/
def text (s : Statement) : String :=
  String.ofList (collapse (s.pieces.flatMap Piece.text))

/-- The numbers of the places for values, in the order of the text. -/
def slots (s : Statement) : List Nat :=
  s.pieces.filterMap fun
    | .slot n => some n
    | _ => none

/-- The names of tables, columns and sequences, in the order of the text. -/
def names (s : Statement) : List String :=
  s.pieces.filterMap fun
    | .name n => some n
    | _ => none

/-- A statement of fixed words. -/
def ofWords (s : String) : Statement := { pieces := [.words s] }

end Statement

/-- The milliseconds of a delay as a floating-point number: the sum of its seconds and of the
fraction of a second, a thousand times. -/
def floatMillis (d : Delay) : Float :=
  (d.seconds.toUInt64.toFloat + d.fraction.toUInt64.toFloat / 1000000000.0) * 1000.0

/-- The bits of a floating-point number in sixteen hexadecimal digits. -/
def floatBits (x : Float) : String :=
  let ds := Nat.toDigits 16 x.toBits.toNat
  String.ofList (List.replicate (16 - ds.length) '0' ++ ds)

end DurableQueue.Sql
