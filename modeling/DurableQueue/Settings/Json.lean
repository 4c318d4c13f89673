import DurableQueue.Json.Codec
import DurableQueue.Settings.Queue

/-!
# The JSON form of settings

Records are written with all their fields in the order of their declaration, absent values as
`null`. A location is taken as it is written, without cleaning its names.
-/

namespace DurableQueue

open Json

/-- A counter. -/
def asCount? (j : Json) : Option Count := (asNatUpTo? Decimal.max32 j).bind Count.ofNat?

instance : JsonCodec String where
  encode := .text
  decode? := asText?

instance : JsonCodec Location where
  encode l := .object [("queue_id", .text l.queue), ("table_name", .text l.table),
    ("id_sequence", ofOption .text l.idSequence)]
  decode? j := do
    match ← asRecord? ["queue_id", "table_name", "id_sequence"] 3 j with
    | [queue, table, sequence] => do
      let q ← field? asText? queue
      let t ← field? asText? table
      let s ← optionalField? asText? sequence
      some ⟨q, t, s⟩
    | _ => none

/-- The alternatives of the processing modes. -/
def processingModes : List (String × ProcessingMode) :=
  [("separate-transactions", .separateTransactions), ("wrap-in-transaction", .wrapInTransaction),
   ("use-external-executor", .useExternalExecutor)]

instance : JsonCodec ProcessingMode where
  encode m := .text m.name
  decode? := asAlternative? processingModes

/-- The name of a failure retry type in JSON. -/
def FailureRetryType.jsonName : FailureRetryType → String
  | .geometric => "geometric_backoff"
  | .arithmetic => "arithmetic_backoff"
  | .linear => "linear_backoff"

instance : JsonCodec FailureRetryType where
  encode t := .text t.jsonName
  decode? := asAlternative? (FailureRetryType.all.map fun t => (t.jsonName, t))

instance : JsonCodec ReenqueueRetryType where
  encode t := .text t.name
  decode? := asAlternative? (ReenqueueRetryType.all.map fun t => (t.name, t))

instance : JsonCodec ProcessingSettings where
  encode s := .object [("thread_count", ofNat s.threadCount.val),
    ("processing_mode", JsonCodec.encode s.mode)]
  decode? j := do
    match ← asRecord? ["thread_count", "processing_mode"] 2 j with
    | [threads, mode] => do
      let t ← field? asCount? threads
      let m ← field? JsonCodec.decode? mode
      some ⟨t, m⟩
    | _ => none

instance : JsonCodec PollSettings where
  encode s := .object [("between_task_timeout", ofDelay s.betweenTasks),
    ("no_task_timeout", ofDelay s.noTask), ("fatal_crash_timeout", ofDelay s.fatalCrash)]
  decode? j := do
    match ← asRecord? ["between_task_timeout", "no_task_timeout", "fatal_crash_timeout"] 3 j with
    | [between, noTask, crash] => do
      let b ← field? asDelay? between
      let n ← field? asDelay? noTask
      let c ← field? asDelay? crash
      some ⟨b, n, c⟩
    | _ => none

instance : JsonCodec FailureSettings where
  encode s := .object [("retry_type", JsonCodec.encode s.retryType),
    ("retry_interval", ofDelay s.retryInterval)]
  decode? j := do
    match ← asRecord? ["retry_type", "retry_interval"] 2 j with
    | [type, interval] => do
      let t ← field? JsonCodec.decode? type
      let i ← field? asDelay? interval
      some ⟨t, i⟩
    | _ => none

instance : JsonCodec ReenqueueSettings where
  encode s := .object [("retry_type", JsonCodec.encode s.retryType),
    ("fixed_delay", ofOption ofDelay s.fixedDelay),
    ("sequential_plan", ofOption (fun plan => .array (plan.map ofDelay)) s.sequentialPlan),
    ("initial_delay", ofOption ofDelay s.initialDelay),
    ("arithmetic_step", ofOption ofDelay s.arithmeticStep),
    ("geometric_ratio", ofOption (fun n => ofNat n.val) s.geometricRatio)]
  decode? j := do
    match ← asRecord? ["retry_type", "fixed_delay", "sequential_plan", "initial_delay",
        "arithmetic_step", "geometric_ratio"] 6 j with
    | [type, fixed, plan, initial, step, ratio] => do
      let t ← field? JsonCodec.decode? type
      let f ← optionalField? asDelay? fixed
      let p ← optionalField? (asList? asDelay?) plan
      let i ← optionalField? asDelay? initial
      let s ← optionalField? asDelay? step
      let r ← optionalField? asCount? ratio
      some ⟨t, f, p, i, s, r⟩
    | _ => none

instance : JsonCodec ExtSettings where
  encode s := .object [("values", ofDict .text s.values)]
  decode? j := do
    match ← asRecord? ["values"] 1 j with
    | [values] => do
      let v ← field? (asDict? asText?) values
      some ⟨v⟩
    | _ => none

end DurableQueue
