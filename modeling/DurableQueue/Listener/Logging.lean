import DurableQueue.Listener.Event

/-!
# Logging listeners

The log records of the listeners that write events to a log: a level, a message and named fields.
Events without a record are silent.
-/

namespace DurableQueue

/-- The level of a log record. -/
inductive LogLevel
  | trace
  | debug
  | info
  | error
  deriving DecidableEq, Repr

/-- The name of a level. -/
def LogLevel.name : LogLevel → String
  | .trace => "TRACE"
  | .debug => "DEBUG"
  | .info => "INFO"
  | .error => "ERROR"

/-- The value of a field of a log record. -/
inductive LogValue
  | text (s : String)
  | number (n : Int)
  | flag (b : Bool)
  deriving DecidableEq, Repr

/-- A log record. -/
structure LogRecord where
  level : LogLevel
  message : String
  fields : List (String × LogValue)
  deriving DecidableEq, Repr

/-- The whole milliseconds of a delay as a number of 64 bits. -/
def logMillis (d : Delay) : LogValue := .number (d.millis % (Decimal.max64 + 1) : Nat)

/-- A task result as log records show it. -/
def TaskResult.shown : TaskResult → String
  | .finish => "Finish"
  | .fail => "Fail"
  | .reenqueue delay =>
    "Reenqueue \x7b delay: " ++ Text.shownOption Delay.brief delay ++ " \x7d"

/-- The log record of an event of a task. -/
def TaskNotice.logRecord? (n : TaskNotice) : Option LogRecord :=
  let place := [("shard_id", LogValue.text n.shard), ("queue_id", .text n.queue),
    ("task_id", .number n.record.id)]
  match n.event with
  | .picked took => some ⟨.debug, "task picked", place ++ [("pick_time_ms", logMillis took)]⟩
  | .started =>
    some ⟨.debug, "consuming task", place ++ [("attempt", .number n.record.attempts.val)]⟩
  | .executed result took =>
    some ⟨.info, "task executed",
      place ++ [("result", .text result.shown), ("process_time_ms", logMillis took)]⟩
  | .crashed error =>
    some ⟨.error, "error while processing task", place ++ [("error", .text error.message)]⟩
  | .finished => none

/-- The log record of an event of a worker. -/
def ThreadNotice.logRecord? (n : ThreadNotice) : Option LogRecord :=
  let place := [("shard_id", LogValue.text n.shard), ("queue_id", .text n.queue)]
  match n.event with
  | .executed processed took =>
    some ⟨.trace, "queue iteration executed",
      place ++ [("processed", .flag processed), ("elapsed_ms", logMillis took)]⟩
  | .crashed error =>
    some ⟨.error, "fatal error in queue worker, backing off",
      place ++ [("error", .text error.message)]⟩
  | _ => none

end DurableQueue
