import DurableQueue.Settings.Failure
import DurableQueue.Store.Sql.Statement

/-!
# Intervals in statements

A delay is a number of milliseconds times an interval of one millisecond, and the delay of a picked
task is that times a factor in which the number of its attempts occurs.

* `Factor` is the form of such factors, `Factor.pieces` writes one and `Factor.value` computes it;
* `failureFactor?` is the factor for a retry type.
-/

namespace DurableQueue.Sql

/-- An expression in the attempts of a row. -/
inductive Factor
  | number (n : Nat)
  /-- A number that is to be taken as a floating-point number. -/
  | float (n : Nat)
  | attempts
  | least (a b : Factor)
  | power (a b : Factor)
  | sum (a b : Factor)
  | product (a b : Factor)
  deriving DecidableEq, Repr

namespace Factor

/-- The text of an expression; `column` holds the attempts of the row `q`. -/
def pieces (column : String) : Factor → List Piece
  | .number n => [.words (String.ofList (Decimal.digits n))]
  | .float n => [.words (String.ofList (Decimal.digits n) ++ "::float8")]
  | .attempts => [.words "q.", .name column]
  | .least a b => .words "LEAST(" :: pieces column a ++ .words ", " :: pieces column b ++ [.words ")"]
  | .power a b => .words "power(" :: pieces column a ++ .words ", " :: pieces column b ++ [.words ")"]
  | .sum a b => .words "(" :: pieces column a ++ .words " + " :: pieces column b ++ [.words ")"]
  | .product a b => pieces column a ++ .words " * " :: pieces column b

/-- The value of an expression after a number of attempts. -/
def value (attempts : Nat) : Factor → Nat
  | .number n => n
  | .float n => n
  | .attempts => attempts
  | .least a b => min (value attempts a) (value attempts b)
  | .power a b => value attempts a ^ value attempts b
  | .sum a b => value attempts a + value attempts b
  | .product a b => value attempts a * value attempts b

end Factor

/-- The factor of the failure interval; none for an interval that does not grow. -/
def failureFactor? : FailureRetryType → Option Factor
  | .linear => none
  | .arithmetic => some (.sum (.number 1) (.product (.number 2) .attempts))
  | .geometric =>
    some (.least (.power (.float 2) (.least .attempts (.number 32))) (.number Decimal.max32))

/-- The interval of a number of milliseconds, which is the value at a place. -/
def interval (slot : Nat) : List Piece :=
  [.slot slot, .words "::float8 * interval '1 millisecond'"]

/-- The failure delay of a row, with the retry interval at a place. -/
def failureDelay (column : String) (type : FailureRetryType) (slot : Nat) : List Piece :=
  match failureFactor? type with
  | none => interval slot
  | some f => f.pieces column ++ .words " * " :: interval slot

end DurableQueue.Sql
