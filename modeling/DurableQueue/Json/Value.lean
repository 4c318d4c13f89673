/-!
# JSON values

The values of JSON documents as far as decoding needs them. Numbers are kept apart by what they
can be decoded to: the integers of 64 bits by their value, all other numbers as one kind. A value
that is grammatical but denotes nothing, such as a text with an unpaired surrogate or a number
beyond the range of floating-point numbers, is `flawed`; it does no harm where it is passed over.
-/

namespace DurableQueue

/-- A JSON value. The fields of an object are listed in the order of the document, repeated names
included. -/
inductive Json
  | null
  | bool (b : Bool)
  | integer (n : Int)
  | real
  | text (s : String)
  | array (items : List Json)
  | object (fields : List (String × Json))
  | flawed
  deriving Repr

namespace Json

/-- The least integer of 64 bits. -/
def leastInteger : Int := -9223372036854775808

/-- The greatest integer of 64 bits without a sign. -/
def greatestInteger : Int := 18446744073709551615

/-- The deepest nesting of arrays and objects in a value that is kept whole before decoding. -/
def deepest : Nat := 127

mutual

/-- How deep arrays and objects are nested. -/
def depth : Json → Nat
  | .array items => depthItems items + 1
  | .object fields => depthFields fields + 1
  | _ => 0

/-- The greatest depth among items. -/
def depthItems : List Json → Nat
  | [] => 0
  | j :: js => max (depth j) (depthItems js)

/-- The greatest depth among the values of fields. -/
def depthFields : List (String × Json) → Nat
  | [] => 0
  | (_, j) :: js => max (depth j) (depthFields js)

end

mutual

/-- Whether a value has no flawed part. -/
def isSound : Json → Bool
  | .flawed => false
  | .array items => allSound items
  | .object fields => allSoundFields fields
  | _ => true

/-- Whether no item has a flawed part. -/
def allSound : List Json → Bool
  | [] => true
  | j :: js => isSound j && allSound js

/-- Whether no value of a field has a flawed part. -/
def allSoundFields : List (String × Json) → Bool
  | [] => true
  | (_, j) :: js => isSound j && allSoundFields js

end

end Json

end DurableQueue
