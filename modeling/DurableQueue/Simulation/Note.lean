import DurableQueue.Json.Codec

/-!
# Notes

A payload with a JSON form of its own: a number and an optional text.
-/

namespace DurableQueue.Simulation

/-- A number of 64 bits and an optional text. -/
structure Note where
  id : Nat
  note : Option String
  deriving DecidableEq, Repr

open Json in
instance : JsonCodec Note where
  encode n := .object [("id", ofNat n.id), ("note", ofOption .text n.note)]
  decode? j := do
    match ← asRecord? ["id", "note"] 2 j with
    | [id, note] => do
      let i ← field? (asNatUpTo? Decimal.max64) id
      let n ← optionalField? asText? note
      some ⟨i, n⟩
    | _ => none

end DurableQueue.Simulation
