import DurableQueue.Text.Blank
import DurableQueue.Text.Quoted
import DurableQueue.Time.DelayText

/-!
# Duration literals

Delays in configuration are written as ISO-8601 durations of days, hours, minutes and seconds,
such as `P1DT2H30M` or `PT0.1S`; case and surrounding blanks do not matter, and the decimals of
the seconds, one to nine of them, may follow a point or a comma.

* `Literal.parse` reads one literal, and every number, product and sum in it has to stay in range;
* `Literal.parseList` reads literals separated by commas and passes over empty places.
-/

namespace DurableQueue.Literal

open Text (isBlank trim pieces splitOnce quoted)

/-- A text that is no duration literal. -/
structure Invalid where
  text : String
  deriving DecidableEq, Repr

/-- The wording of the error, which shows the text as it was given. -/
def Invalid.message (e : Invalid) : String := "invalid ISO-8601 duration: " ++ quoted e.text

/-- The units behind the letter `T`, each to be used once at most and in this order. -/
inductive TimeUnit
  | hours
  | minutes
  | seconds
  deriving DecidableEq, Repr

/-- The letter that marks a unit. -/
def TimeUnit.letter : TimeUnit → Char
  | .hours => 'H'
  | .minutes => 'M'
  | .seconds => 'S'

/-- Read a run of digits as a number of 64 bits. -/
def whole? (cs : List Char) : Option Nat := (Decimal.value? cs).filter (· ≤ Decimal.max64)

/-- A product, if it is a number of 64 bits. -/
def times? (n k : Nat) : Option Nat := if n * k ≤ Decimal.max64 then some (n * k) else none

/-- A whole number of units of `size` seconds each. -/
def units? (size : Nat) (cs : List Char) : Option Delay := do
  let n ← whole? cs
  let seconds ← times? n size
  some (Delay.ofSeconds seconds)

/-- Seconds with one to nine decimals behind a point or a comma, or without any. -/
def seconds? (cs : List Char) : Option Delay :=
  match splitOnce (fun c => c == '.' || c == ',') cs with
  | none => (whole? cs).map Delay.ofSeconds
  | some (whole, decimals) => do
    let w ← whole? whole
    let f ← Delay.fractionNanos? decimals
    Delay.ofNanos? (w * nanosPerSecond + f)

/-- What the number in front of a unit letter stands for. -/
def TimeUnit.delay? : TimeUnit → List Char → Option Delay
  | .hours => units? 3600
  | .minutes => units? 60
  | .seconds => seconds?

/-- The part behind the letter `T`, added to a total: numbers with units, in the order of `units`.
A unit that is passed over is used up. -/
def addTime? : List TimeUnit → Delay → List Char → Option Delay
  | _, total, [] => some total
  | [], _, _ :: _ => none
  | u :: us, total, cs =>
    match cs.span (fun c => !c.isAlpha) with
    | (_, []) => none
    | (number, letter :: rest) =>
      if letter = u.letter then do
        let part ← u.delay? number
        let sum ← total.add? part
        addTime? us sum rest
      else addTime? us total cs

/-- The part in front of the letter `T`: nothing, or a number of days. -/
def date? (cs : List Char) : Option Delay :=
  match cs.reverse with
  | [] => some .zero
  | 'D' :: digits => units? 86400 digits.reverse
  | _ => none

/-- The delay of a trimmed upper-case literal. -/
def delay? : List Char → Option Delay
  | 'P' :: rest =>
    match splitOnce (· == 'T') rest with
    | none => if rest = [] then none else date? rest
    | some (date, time) =>
      if time = [] then none
      else do
        let days ← date? date
        addTime? [.hours, .minutes, .seconds] days time
  | _ => none

/-- Read one duration literal. -/
def parse (s : String) : Except Invalid Delay :=
  match delay? ((trim s.toList).map Char.toUpper) with
  | some d => .ok d
  | none => .error ⟨s⟩

/-- The trimmed, non-empty texts between commas. -/
def listParts (s : String) : List String :=
  ((pieces ',' s.toList).map trim).filterMap fun p =>
    if p = [] then none else some (String.ofList p)

/-- Read duration literals separated by commas; the first that is none is reported. -/
def parseList (s : String) : Except Invalid (List Delay) := (listParts s).mapM parse

end DurableQueue.Literal
