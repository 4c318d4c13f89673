import DurableQueue.Text.Decimal
import DurableQueue.Text.Split
import DurableQueue.Time.Delay

/-!
# Written delays

* `Delay.text` shows seconds with all nine decimals, `1.500000000`;
* `Delay.ofText?` reads seconds with at most nine decimals;
* `Delay.brief` shows the largest unit of which there is at least one, without trailing zeros:
  `1.5s`, `100ms`, `1.5µs`, `0ns`.
-/

namespace DurableQueue.Delay

open Text (splitOnce)

/-- Seconds with nine decimals. -/
def text (d : Delay) : String :=
  String.ofList (Decimal.digits d.seconds ++ '.' :: Decimal.padded 9 d.fraction)

/-- The nanoseconds that one to nine decimals of a second stand for. -/
def fractionNanos? (cs : List Char) : Option Nat :=
  if cs.length ≤ 9 then (Decimal.value? cs).map (· * Nat.pow 10 (9 - cs.length)) else none

/-- Read seconds with at most nine decimals after a point. -/
def ofText? (s : String) : Option Delay :=
  match splitOnce (· == '.') s.toList with
  | none => do ofNanos? ((← Decimal.value? s.toList) * nanosPerSecond)
  | some (whole, decimals) => do
    let w ← Decimal.value? whole
    let f ← fractionNanos? decimals
    ofNanos? (w * nanosPerSecond + f)

/-- Remove trailing zeros. -/
def dropZeros (cs : List Char) : List Char := (cs.reverse.dropWhile (· == '0')).reverse

/-- A count of units, of `10 ^ places` parts each, as a decimal number without trailing zeros. -/
def inUnit (places n : Nat) : List Char :=
  let whole := Decimal.digits (n / Nat.pow 10 places)
  match dropZeros (Decimal.padded places (n % Nat.pow 10 places)) with
  | [] => whole
  | decimals => whole ++ '.' :: decimals

/-- The count of the largest unit of which there is at least one. -/
def brief (d : Delay) : String :=
  let n := d.nanos
  if n ≥ 1000000000 then String.ofList (inUnit 9 n) ++ "s"
  else if n ≥ 1000000 then String.ofList (inUnit 6 n) ++ "ms"
  else if n ≥ 1000 then String.ofList (inUnit 3 n) ++ "µs"
  else String.ofList (Decimal.digits n) ++ "ns"

end DurableQueue.Delay
