import DurableQueue.Text.Blank
import DurableQueue.Text.Decimal
import DurableQueue.Text.Split
import DurableQueue.Time.Calendar
import DurableQueue.Time.Instant

/-!
# Written timestamps

Instants are written as RFC 3339 timestamps in UTC, `2024-01-02T03:04:05.678Z`: no decimals, or
three, six or nine of them, and a sign in front of a year outside `0000` to `9999`.

* `Timestamp.write` writes an instant;
* `Timestamp.read?` reads one. It also takes an offset from UTC, one digit where two are usual,
  blanks between the parts and a blank instead of the letter `T`.
-/

namespace DurableQueue.Timestamp

open Text (isBlank trimStart stripPrefix)

/-! ### Writing -/

/-- The decimals of a second: none, or as many groups of three as are needed. -/
def writeDecimals (nano : Nat) : List Char :=
  if nano = 0 then []
  else if nano % 1000000 = 0 then '.' :: Decimal.padded 3 (nano / 1000000)
  else if nano % 1000 = 0 then '.' :: Decimal.padded 6 (nano / 1000)
  else '.' :: Decimal.padded 9 nano

/-- A year: four digits, or a sign and at least four digits. -/
def writeYear (y : Int) : List Char :=
  if 0 ≤ y ∧ y ≤ 9999 then Decimal.padded 4 y.toNat
  else (if y < 0 then '-' else '+') :: Decimal.padded 4 y.natAbs

/-- Write an instant in UTC. A leap second is second 60 of its minute. -/
def write (t : Instant) : String :=
  let date := Calendar.civilFromDays (t.second / 86400)
  let secondOfDay := (t.second % 86400).toNat
  let leap := t.inLeapSecond
  String.ofList <|
    writeYear date.year ++ '-' :: Decimal.padded 2 date.month ++ '-' :: Decimal.padded 2 date.day
      ++ 'T' :: Decimal.padded 2 (secondOfDay / 3600)
      ++ ':' :: Decimal.padded 2 (secondOfDay / 60 % 60)
      ++ ':' :: Decimal.padded 2 (secondOfDay % 60 + if leap then 1 else 0)
      ++ writeDecimals (if leap then t.nano - nanosPerSecond else t.nano) ++ ['Z']

/-! ### Reading -/

/-- Read one digit or more, up to `most` of them. -/
def readNumber? (most : Nat) (cs : List Char) : Option (Nat × List Char) :=
  let ds := (cs.take most).takeWhile Char.isDigit
  (Decimal.value? ds).map fun n => (n, cs.drop ds.length)

/-- Read blanks and a number of at most two digits. -/
def readField? (cs : List Char) : Option (Nat × List Char) := readNumber? 2 (trimStart cs)

/-- Read blanks and a year: up to four digits, or a sign and any number of digits. -/
def readYear? (cs : List Char) : Option (Int × List Char) :=
  match trimStart cs with
  | '-' :: rest => (readNumber? rest.length rest).map fun (n, r) => (-(n : Int), r)
  | '+' :: rest => (readNumber? rest.length rest).map fun (n, r) => ((n : Int), r)
  | rest => (readNumber? 4 rest).map fun (n, r) => ((n : Int), r)

/-- Read blanks and a punctuation mark. -/
def readMark? (mark : Char) (cs : List Char) : Option (List Char) :=
  stripPrefix [mark] (trimStart cs)

/-- Read the decimals of a second; those after the ninth are passed over. -/
def readDecimals? : List Char → Option (Nat × List Char)
  | '.' :: cs =>
    let ds := (cs.take 9).takeWhile Char.isDigit
    (Decimal.value? ds).map fun n =>
      (n * Nat.pow 10 (9 - ds.length), (cs.drop ds.length).dropWhile Char.isDigit)
  | cs => some (0, cs)

/-- Two digits, the first of them at most `top`. -/
def readPair? (top : Char) : List Char → Option (Nat × List Char)
  | a :: b :: rest =>
    if a.isDigit ∧ b.isDigit ∧ a ≤ top then some (Decimal.number [a, b], rest) else none
  | _ => none

/-- Read an offset from UTC in seconds: `Z`, `UTC`, or a sign with hours and minutes. -/
def readOffset? (cs : List Char) : Option (Int × List Char) :=
  match cs.map Char.toUpper with
  | 'U' :: 'T' :: 'C' :: _ => some (0, cs.drop 3)
  | 'Z' :: _ => some (0, cs.drop 1)
  | sign :: _ =>
    if sign = '+' ∨ sign = '-' ∨ sign = '−' then do
      let (hours, rest) ← readPair? '9' (cs.drop 1)
      let (minutes, rest) ← readPair? '5' (rest.dropWhile fun c => c == ':' || isBlank c)
      let offset : Int := hours * 3600 + minutes * 60
      if offset < 86400 then some (if sign = '+' then offset else -offset, rest) else none
    else none
  | [] => none

/-- The instant of a date and a time of day at an offset from UTC. Both the local and the
universal time have to be in range, and only second 60 is a leap second. -/
def assemble? (date : Calendar.Date) (hour minute second nano : Nat) (offset : Int) :
    Option Instant :=
  if date.isValid ∧ hour ≤ 23 ∧ minute ≤ 59 ∧ second ≤ 60 then do
    let leap := second = 60
    let s : Int := Calendar.daysFromCivil date * 86400 + hour * 3600 + minute * 60
      + if leap then 59 else second
    let n := if leap then nano + nanosPerSecond else nano
    let _ ← Instant.of? s n
    Instant.of? (s - offset) n
  else none

/-- Read a timestamp; nothing but blanks may follow it. -/
def read? (s : String) : Option Instant := do
  let (year, cs) ← readYear? s.toList
  let cs ← readMark? '-' cs
  let (month, cs) ← readField? cs
  let cs ← readMark? '-' cs
  let (day, cs) ← readField? cs
  let cs ← match cs with
    | 'T' :: cs | 't' :: cs | ' ' :: cs => some cs
    | _ => none
  let (hour, cs) ← readField? cs
  let cs ← readMark? ':' cs
  let (minute, cs) ← readField? cs
  let cs ← readMark? ':' cs
  let (second, cs) ← readField? cs
  let (nano, cs) ← readDecimals? cs
  let (offset, cs) ← readOffset? (trimStart cs)
  if trimStart cs = [] then assemble? ⟨year, month, day⟩ hour minute second nano offset else none

end DurableQueue.Timestamp
