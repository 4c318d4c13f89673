import DurableQueue.Json.Codec
import DurableQueue.Settings.Json
import DurableQueue.Task.Error

/-!
# Payloads

A transformer turns the payload of a task into the text that a store keeps and back.

* `Transformer.text` keeps texts as they are;
* `Transformer.json` writes JSON documents;
* `Transformer.reject` refuses every payload.

An absent payload stays absent for the first two, and is refused too by the last.
-/

namespace DurableQueue

/-- The two directions between payloads and stored texts. -/
structure Transformer (π : Type) where
  toObject : Option String → Except TransformError (Option π)
  fromObject : Option π → Except TransformError (Option String)

namespace Transformer

/-- Texts are kept as they are. -/
def text : Transformer String := ⟨.ok, .ok⟩

/-- Payloads are written as JSON documents. -/
def json (π : Type) [JsonCodec π] : Transformer π where
  toObject
    | none => .ok none
    | some s =>
      match JsonCodec.decodeText? s with
      | some a => .ok (some a)
      | none => .error .serialization
  fromObject a := .ok (a.map JsonCodec.encodeText)

/-- The error that refuses a payload, which it shows as JSON. -/
def rejection (payload : Option String) : TransformError :=
  .other ("rejected " ++ (Json.ofOption .text payload).write)

/-- Every payload is refused. -/
def reject : Transformer String := ⟨fun s => .error (rejection s), fun s => .error (rejection s)⟩

end Transformer

end DurableQueue
