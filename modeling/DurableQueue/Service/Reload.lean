import DurableQueue.Config.Reader
import DurableQueue.Service.Registry

/-!
# Reloading

A service is kept at the configuration in its files.

* `reload` reads all files and applies them. When a file cannot be read, the configuration has
  problems or names an unknown queue, nothing changes;
* `Stamp` is what a watcher compares of a file from look to look.
-/

namespace DurableQueue

/-- Why a configuration could not be reloaded. -/
inductive ReloadError
  | config (e : Config.ConfigError)
  | service (e : ServiceError)
  deriving DecidableEq, Repr

/-- Read the files of a service and apply them; gives the changes. -/
def reload {A : Signature} {ω υ : Type} (judge : Judge ω υ) (keyPrefix : String)
    (files : List Config.File) (s : Service A ω) (u : υ) :
    Except ReloadError Service.Changes × Service A ω × υ :=
  match Config.read keyPrefix files with
  | .error e => (.error (.config e), s, u)
  | .ok configs =>
    match s.update judge (configs.map QueueConfig.given) u with
    | (.ok changes, s, u) => (.ok changes, s, u)
    | (.error e, s, u) => (.error (.service e), s, u)

/-- What is compared of a file: its size, if it can be found. -/
abbrev Stamp := Option Nat

/-- The stamp of a file with some text. -/
def stampOf : Option String → Stamp
  | none => none
  | some text => some text.utf8ByteSize

end DurableQueue
