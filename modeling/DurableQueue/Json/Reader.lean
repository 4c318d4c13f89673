import DurableQueue.Json.Value
import DurableQueue.Text.Decimal

/-!
# Reading JSON text

* `Json.read?` reads a document that holds one value and blanks around it;
* `Json.readValue?` reads a value in front of further text.

Every function returns what it read and the text after it. The depth of nesting is bounded by the
fuel, which `read?` sets to twice the length of the document, so it never runs out.
-/

namespace DurableQueue.Json

/-- Pass over blanks. -/
def skipBlanks (cs : List Char) : List Char :=
  cs.dropWhile fun c => c == ' ' || c == '\n' || c == '\t' || c == '\r'

/-! ### Texts -/

/-- The value of a hexadecimal digit. -/
def hexValue? (c : Char) : Option Nat :=
  if c.isDigit then some (c.toNat - '0'.toNat)
  else if 'a' ≤ c ∧ c ≤ 'f' then some (c.toNat - 'a'.toNat + 10)
  else if 'A' ≤ c ∧ c ≤ 'F' then some (c.toNat - 'A'.toNat + 10)
  else none

/-- The character of a one-letter escape. -/
def escaped? (c : Char) : Option Char :=
  match c with
  | '"' => some '"'
  | '\\' => some '\\'
  | '/' => some '/'
  | 'b' => some '\x08'
  | 'f' => some '\x0c'
  | 'n' => some '\n'
  | 'r' => some '\r'
  | 't' => some '\t'
  | _ => none

/-- Read the units of a text up to its closing quote: characters that stand for themselves or have
an escape of their own, and code units given by four hexadecimal digits. -/
def readUnits? : List Char → Option (List (Char ⊕ Nat) × List Char)
  | [] => none
  | '"' :: cs => some ([], cs)
  | '\\' :: 'u' :: a :: b :: c :: d :: cs => do
    let n := (((← hexValue? a) * 16 + (← hexValue? b)) * 16 + (← hexValue? c)) * 16
      + (← hexValue? d)
    let (units, rest) ← readUnits? cs
    some (.inr n :: units, rest)
  | '\\' :: e :: cs => do
    let c ← escaped? e
    let (units, rest) ← readUnits? cs
    some (.inl c :: units, rest)
  | c :: cs =>
    if c.toNat < 32 ∨ c = '\\' then none
    else do
      let (units, rest) ← readUnits? cs
      some (.inl c :: units, rest)

/-- A code unit that opens a surrogate pair. -/
def isHighSurrogate (n : Nat) : Bool := 0xD800 ≤ n && n < 0xDC00

/-- A code unit that closes a surrogate pair. -/
def isLowSurrogate (n : Nat) : Bool := 0xDC00 ≤ n && n < 0xE000

/-- The characters of the units of a text, if every surrogate is part of a pair. -/
def joinUnits? : List (Char ⊕ Nat) → Option (List Char)
  | [] => some []
  | .inl c :: us => (joinUnits? us).map (c :: ·)
  | [.inr n] =>
    if isHighSurrogate n ∨ isLowSurrogate n then none else some [Char.ofNat n]
  | .inr n :: .inl c :: us =>
    if isHighSurrogate n ∨ isLowSurrogate n then none
    else (joinUnits? (.inl c :: us)).map (Char.ofNat n :: ·)
  | .inr n :: .inr m :: us =>
    if isHighSurrogate n then
      if isLowSurrogate m then
        (joinUnits? us).map (Char.ofNat (0x10000 + (n - 0xD800) * 0x400 + (m - 0xDC00)) :: ·)
      else none
    else if isLowSurrogate n then none
    else (joinUnits? (.inr m :: us)).map (Char.ofNat n :: ·)

/-- Read a text after its opening quote; a text with an unpaired surrogate denotes nothing. -/
def readText? (cs : List Char) : Option (Option String × List Char) :=
  (readUnits? cs).map fun (units, rest) => ((joinUnits? units).map String.ofList, rest)

/-! ### Numbers -/

/-- Whether `n * 10 ^ e` is beyond the range of floating-point numbers. -/
def isOutOfRange (n : Nat) (e : Int) : Bool :=
  let magnitude := (Decimal.digits n).length + e
  if n = 0 ∨ magnitude ≤ 308 then false
  else if magnitude > 309 then true
  else n * Nat.pow 10 (e + 400).toNat ≥ (Nat.pow 2 1024 - Nat.pow 2 970) * Nat.pow 10 400

/-- Read decimals after a point, if there is one. -/
def readDecimals? : List Char → Option (List Char × List Char)
  | '.' :: cs =>
    match cs.takeWhile Char.isDigit with
    | [] => none
    | ds => some (ds, cs.dropWhile Char.isDigit)
  | cs => some ([], cs)

/-- Read an exponent, if there is one. -/
def readExponent? : List Char → Option (Option Int × List Char)
  | [] => some (none, [])
  | c :: cs =>
    if c = 'e' ∨ c = 'E' then
      let (negative, cs) := match cs with
        | '-' :: cs => (true, cs)
        | '+' :: cs => (false, cs)
        | cs => (false, cs)
      match cs.takeWhile Char.isDigit with
      | [] => none
      | ds =>
        let n : Int := Decimal.number ds
        some (some (if negative then -n else n), cs.dropWhile Char.isDigit)
    else some (none, c :: cs)

/-- What an integer literal denotes: a minus zero and what needs more than 64 bits are real. -/
def integerLiteral (negative : Bool) (n : Nat) : Json :=
  let v : Int := if negative then -n else n
  if (negative ∧ n = 0) ∨ v < leastInteger ∨ v > greatestInteger then
    if isOutOfRange n 0 then .flawed else .real
  else .integer v

/-- Read a number without its sign. -/
def readUnsigned? (negative : Bool) (cs : List Char) : Option (Json × List Char) := do
  let whole := cs.takeWhile Char.isDigit
  if whole = [] ∨ (whole.length > 1 ∧ whole.head? = some '0') then none
  else do
    let (decimals, rest) ← readDecimals? (cs.dropWhile Char.isDigit)
    let (exponent, rest) ← readExponent? rest
    match decimals, exponent with
    | [], none => some (integerLiteral negative (Decimal.number whole), rest)
    | ds, e =>
      if isOutOfRange (Decimal.number (whole ++ ds)) (e.getD 0 - ds.length) then some (.flawed, rest)
      else some (.real, rest)

/-! ### Values -/

/-- Read a word. -/
def readWord? (word : List Char) (j : Json) (cs : List Char) : Option (Json × List Char) :=
  if cs.take word.length = word then some (j, cs.drop word.length) else none

mutual

/-- Read a value, blanks in front of it included. -/
def readValue? : Nat → List Char → Option (Json × List Char)
  | 0, _ => none
  | fuel + 1, cs =>
    match skipBlanks cs with
    | [] => none
    | '"' :: cs => (readText? cs).map fun (s, rest) => (s.elim .flawed .text, rest)
    | '[' :: cs =>
      match skipBlanks cs with
      | ']' :: rest => some (.array [], rest)
      | cs => (readItems? fuel cs).map fun (items, rest) => (.array items, rest)
    | '\x7b' :: cs =>
      match skipBlanks cs with
      | '\x7d' :: rest => some (.object [], rest)
      | cs => (readFields? fuel cs).map fun (fields, rest) => (fields.elim .flawed .object, rest)
    | '-' :: cs => readUnsigned? true cs
    | 'n' :: cs => readWord? "ull".toList .null cs
    | 't' :: cs => readWord? "rue".toList (.bool true) cs
    | 'f' :: cs => readWord? "alse".toList (.bool false) cs
    | cs => readUnsigned? false cs

/-- Read one item or more, up to the closing bracket. -/
def readItems? : Nat → List Char → Option (List Json × List Char)
  | 0, _ => none
  | fuel + 1, cs => do
    let (j, rest) ← readValue? fuel cs
    match skipBlanks rest with
    | ']' :: rest => some ([j], rest)
    | ',' :: rest =>
      let (js, rest) ← readItems? fuel rest
      some (j :: js, rest)
    | _ => none

/-- Read one field or more, up to the closing brace. A field whose name denotes nothing spoils the
whole object. -/
def readFields? : Nat → List Char → Option (Option (List (String × Json)) × List Char)
  | 0, _ => none
  | fuel + 1, cs => do
    match skipBlanks cs with
    | '"' :: cs =>
      let (name, rest) ← readText? cs
      match skipBlanks rest with
      | ':' :: rest =>
        let (j, rest) ← readValue? fuel rest
        let field := name.map fun n => (n, j)
        match skipBlanks rest with
        | '\x7d' :: rest => some (field.map ([·]), rest)
        | ',' :: rest =>
          let (fields, rest) ← readFields? fuel rest
          some (field.bind fun f => fields.map (f :: ·), rest)
        | _ => none
      | _ => none
    | _ => none

end

/-- Read a document that holds one value. -/
def read? (s : String) : Option Json :=
  let cs := s.toList
  match readValue? (2 * cs.length + 1) cs with
  | some (j, rest) => if skipBlanks rest = [] then some j else none
  | none => none

end DurableQueue.Json
