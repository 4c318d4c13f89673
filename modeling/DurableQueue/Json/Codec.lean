import DurableQueue.Dict
import DurableQueue.Json.Reader
import DurableQueue.Json.Writer
import DurableQueue.Time.Timestamp

/-!
# Encoding and decoding

The JSON forms of the building blocks of this library: numbers of a given width, optional values,
lists, dictionaries, delays, timestamps, records with named fields and enumerations.

* `JsonCodec` pairs an encoder with a decoder, and `JsonCodec.encodeText`, `decodeText?` work on
  documents;
* a record is decoded from an object, in which unknown fields are passed over and known ones may
  not be repeated, or from an array that holds its fields in their order;
* an enumeration is decoded from the name of an alternative, or from an object whose only field
  has that name and the value `null`.
-/

namespace DurableQueue

/-- A type with a JSON form. -/
class JsonCodec (α : Type) where
  encode : α → Json
  decode? : Json → Option α

namespace JsonCodec

/-- The document of a value. -/
def encodeText {α : Type} [JsonCodec α] (a : α) : String := (encode a).write

/-- The value of a document. -/
def decodeText? {α : Type} [JsonCodec α] (s : String) : Option α := (Json.read? s).bind decode?

end JsonCodec

open JsonCodec (encode decode?)

namespace Json

/-! ### Decoders -/

/-- A text. -/
def asText? : Json → Option String
  | .text s => some s
  | _ => none

/-- A number from zero to a limit. -/
def asNatUpTo? (limit : Nat) : Json → Option Nat
  | .integer (.ofNat n) => if n ≤ limit then some n else none
  | _ => none

/-- An integer of 64 bits with a sign. -/
def asInt64? : Json → Option Int
  | .integer n => if leastInteger ≤ n ∧ n < -leastInteger then some n else none
  | _ => none

/-- A value that may be `null`. -/
def asOption? {α : Type} (f : Json → Option α) : Json → Option (Option α)
  | .null => some none
  | j => (f j).map some

/-- Every item of an array. -/
def asList? {α : Type} (f : Json → Option α) : Json → Option (List α)
  | .array items => items.mapM f
  | _ => none

/-- Every field of an object; of fields with the same name the last one counts. -/
def asDict? {α : Type} (f : Json → Option α) : Json → Option (Dict α)
  | .object fields => (fields.mapM fun e => (f e.2).map fun v => (e.1, v)).map Dict.ofList
  | _ => none

/-- The values of a field by its name, in the order of the document. -/
def valuesOf (name : String) (fields : List (String × Json)) : List Json :=
  fields.filterMap fun e => if e.1 = name then some e.2 else none

/-- The fields of a record by their names, absent ones as `none`. An array has to hold at least
`required` of them, in their order, and no more than there are names. -/
def asRecord? (names : List String) (required : Nat) : Json → Option (List (Option Json))
  | .object fields => names.mapM fun name =>
      match valuesOf name fields with
      | [] => some none
      | [j] => some (some j)
      | _ => none
  | .array items =>
      if required ≤ items.length ∧ items.length ≤ names.length then
        some (items.map some ++ List.replicate (names.length - items.length) none)
      else none
  | _ => none

/-- A field that has to be present. -/
def field? {α : Type} (f : Json → Option α) (j : Option Json) : Option α := j.bind f

/-- A field that counts as `null` when it is absent. -/
def optionalField? {α : Type} (f : Json → Option α) (j : Option Json) : Option (Option α) :=
  match j with
  | none => some none
  | some j => asOption? f j

/-- The alternative of an enumeration with a given name. -/
def asAlternative? {α : Type} (alternatives : List (String × α)) : Json → Option α
  | .text s => alternatives.lookup s
  | .object [(name, .null)] => alternatives.lookup name
  | _ => none

/-- A delay: its whole seconds and further nanoseconds, of which there may be more than a second.
No other field is allowed. -/
def asDelay? (j : Json) : Option Delay := do
  let known := match j with
    | .object fields => fields.all fun e => e.1 = "secs" || e.1 = "nanos"
    | _ => true
  if known then
    match ← asRecord? ["secs", "nanos"] 2 j with
    | [secs, nanos] => do
      let s ← field? (asNatUpTo? Decimal.max64) secs
      let n ← field? (asNatUpTo? Decimal.max32) nanos
      Delay.ofNanos? (s * nanosPerSecond + n)
    | _ => none
  else none

/-- A timestamp. -/
def asInstant? (j : Json) : Option Instant := (asText? j).bind Timestamp.read?

/-! ### Encoders -/

/-- A value that may be absent. -/
def ofOption {α : Type} (f : α → Json) (a : Option α) : Json := a.elim .null f

/-- A number. -/
def ofNat (n : Nat) : Json := .integer n

/-- A dictionary. -/
def ofDict {α : Type} (f : α → Json) (d : Dict α) : Json :=
  .object (d.entries.map fun e => (e.1, f e.2))

/-- A delay by its whole seconds and the nanoseconds beyond them. -/
def ofDelay (d : Delay) : Json :=
  .object [("secs", .integer d.seconds), ("nanos", .integer d.fraction)]

/-- A timestamp. -/
def ofInstant (t : Instant) : Json := .text (Timestamp.write t)

end Json

end DurableQueue
