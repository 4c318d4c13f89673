import DurableQueue.Retry.Strategy

/-!
# Errors

* `StoreError`, `TransformError` and `ConsumerError` say what went wrong in a store, in a payload
  and in a consumer;
* `ProcessingError` is what ends an iteration of a worker or the processing of a task;
* each has one wording, its `message`.
-/

namespace DurableQueue

/-- A call of a store has failed. -/
inductive StoreError
  | database (message : String)
  | transactionCompleted
  | unknownColumn (column : String)
  deriving DecidableEq, Repr

/-- The wording of a store error. -/
def StoreError.message : StoreError → String
  | .database m => "database error: " ++ m
  | .transactionCompleted => "transaction already completed"
  | .unknownColumn c => "unknown extra column: " ++ c

/-- The kind of a store error. -/
def StoreError.kind : StoreError → String
  | .database _ => "Database"
  | .transactionCompleted => "TransactionCompleted"
  | .unknownColumn _ => "UnknownColumn"

/-- A payload could not be encoded or decoded. -/
inductive TransformError
  /-- The text is no JSON document of the right form. -/
  | serialization
  | other (message : String)
  deriving DecidableEq, Repr

/-- The wording of a transform error. -/
def TransformError.message : TransformError → String
  | .serialization => "payload serialization error"
  | .other m => "payload error: " ++ m

/-- The kind of a transform error. -/
def TransformError.kind : TransformError → String
  | .serialization => "Serialization"
  | .other _ => "Other"

/-- The error of a consumer: a chain of texts from the outermost context to the root cause. -/
structure ConsumerError where
  chain : List String
  deriving DecidableEq, Repr

/-- The wording of a consumer error, the whole chain. -/
def ConsumerError.message (e : ConsumerError) : String := String.intercalate ": " e.chain

/-- What a panic carries: a text, or something that is no text. -/
inductive Panic
  | text (message : String)
  | opaquePayload
  deriving DecidableEq, Repr

/-- The wording of a panic. -/
def Panic.message : Panic → String
  | .text m => m
  | .opaquePayload => "unknown panic"

/-- What ends an iteration of a worker or the processing of a task. -/
inductive ProcessingError
  | store (e : StoreError)
  | payload (e : TransformError)
  | consumer (e : ConsumerError)
  | retry (e : RetryError)
  | settings (e : SettingError)
  | panicked (p : Panic)
  deriving DecidableEq, Repr

namespace ProcessingError

/-- The wording of a processing error. -/
def message : ProcessingError → String
  | .store e => "store error: " ++ e.message
  | .payload e => "payload error: " ++ e.message
  | .consumer e => "consumer error: " ++ e.message
  | .retry e => "retry error: " ++ e.message
  | .settings e => "invalid settings: " ++ e.message
  | .panicked p => "panicked: " ++ p.message

/-- The kind of a processing error. -/
def kind : ProcessingError → String
  | .store _ => "Store"
  | .payload _ => "Payload"
  | .consumer _ => "Consumer"
  | .retry _ => "Retry"
  | .settings _ => "Settings"
  | .panicked _ => "Panicked"

end ProcessingError

/-- The error of a producer: the store or the payload. -/
inductive ProducerError
  | store (e : StoreError)
  | payload (e : TransformError)
  deriving DecidableEq, Repr

/-- The wording of a producer error. -/
def ProducerError.message : ProducerError → String
  | .store e => "store error: " ++ e.message
  | .payload e => "payload error: " ++ e.message

/-- The kind of a producer error: that of the store error, or the payload. -/
def ProducerError.kind : ProducerError → String
  | .store e => e.kind
  | .payload _ => "Payload"

end DurableQueue
