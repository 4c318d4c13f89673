import DurableQueue.Settings.Json
import DurableQueue.Task.Record

/-!
# The JSON form of tasks

A record is written with all its fields; reading it, the extra columns may be missing. A task
result is an object whose field `action` names the alternative. It is kept whole before it is
decoded, so no part of it may be flawed or nested too deeply; an array with the action in front of
the other fields is read as well.
-/

namespace DurableQueue

open Json

/-- Extra columns; each holds a text or `null`. -/
def asColumns? (j : Json) : Option (Dict (Option String)) := asDict? (asOption? asText?) j

instance : JsonCodec TaskRecord where
  encode r := .object [("id", .integer r.id), ("payload", ofOption .text r.payload),
    ("attempts_count", ofNat r.attempts.val),
    ("reenqueue_attempts_count", ofNat r.reenqueueAttempts.val),
    ("total_attempts_count", ofNat r.totalAttempts.val),
    ("created_at", ofInstant r.createdAt), ("next_process_at", ofInstant r.nextProcessAt),
    ("extra", ofDict (ofOption .text) r.extra)]
  decode? j := do
    match ← asRecord? ["id", "payload", "attempts_count", "reenqueue_attempts_count",
        "total_attempts_count", "created_at", "next_process_at", "extra"] 7 j with
    | [id, payload, attempts, reenqueues, total, created, next, extra] => do
      let i ← field? asInt64? id
      let p ← optionalField? asText? payload
      let a ← field? asCount? attempts
      let r ← field? asCount? reenqueues
      let t ← field? asCount? total
      let c ← field? asInstant? created
      let n ← field? asInstant? next
      let e ← match extra with
        | none => some Dict.empty
        | some e => asColumns? e
      some ⟨i, p, a, r, t, c, n, e⟩
    | _ => none

namespace TaskResult

/-- The field that names the alternative of a task result. -/
def tag : String := "action"

/-- Decode the alternative of a name from its other fields. -/
def ofFields? (action : String) (fields : List (String × Json)) : Option TaskResult :=
  match action with
  | "finish" => some .finish
  | "fail" => some .fail
  | "reenqueue" =>
    match valuesOf "delay" fields with
    | [] => some (.reenqueue none)
    | [d] => (asOption? asDelay? d).map .reenqueue
    | _ => none
  | _ => none

/-- Decode the alternative of a name from the items behind it. -/
def ofItems? (action : String) (items : List Json) : Option TaskResult :=
  match action, items with
  | "finish", [] => some .finish
  | "fail", [] => some .fail
  | "reenqueue", [d] => (asOption? asDelay? d).map .reenqueue
  | _, _ => none

/-- Decode a task result. -/
def decode? (j : Json) : Option TaskResult :=
  if j.isSound ∧ j.depth ≤ Json.deepest then
    match j with
    | .object fields =>
      match valuesOf tag fields with
      | [.text action] => ofFields? action (fields.filter fun e => e.1 ≠ tag)
      | _ => none
    | .array (.text action :: items) => ofItems? action items
    | _ => none
  else none

instance : JsonCodec TaskResult where
  encode
    | .finish => .object [(tag, .text "finish")]
    | .reenqueue delay => .object [(tag, .text "reenqueue"), ("delay", ofOption ofDelay delay)]
    | .fail => .object [(tag, .text "fail")]
  decode? := decode?

end TaskResult

end DurableQueue
