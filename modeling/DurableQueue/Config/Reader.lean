import DurableQueue.Config.Properties
import DurableQueue.Config.Section

/-!
# Reading configurations

The settings of queues are the properties `<prefix>.<queue id>.<setting>`; a queue id holds no
dot. Other properties below the prefix are problems, and properties elsewhere are passed over.

* `Config.parse` reads all queues, in ascending order of their ids, or lists every problem: the
  malformed keys in ascending order, then the problems of the queues in ascending order;
* `Config.sectionOf` is the section of one queue;
* `File` is what reading a file gives, and `Config.read` reads a configuration from files, in
  which a later file overrides an earlier one key by key.
-/

namespace DurableQueue.Config

open Text (splitOnce stripPrefix)

/-- The prefix of the properties of queues, unless another one is asked for. -/
def defaultPrefix : String := "tablequeue"

/-- What a key is to the configuration of queues. -/
inductive KeyRole
  | foreign
  | malformed
  | setting (queue : QueueId) (name : String)
  deriving DecidableEq, Repr

/-- What a key is below a prefix. -/
def roleOf (keyPrefix key : String) : KeyRole :=
  match stripPrefix (keyPrefix.toList ++ ['.']) key.toList with
  | none => .foreign
  | some rest =>
    match splitOnce (· == '.') rest with
    | some (c :: queue, d :: name) => .setting (String.ofList (c :: queue)) (String.ofList (d :: name))
    | _ => .malformed

/-- The malformed keys in ascending order. -/
def malformedKeys (keyPrefix : String) (properties : Dict String) : List Problem :=
  properties.keys.filterMap fun k =>
    match roleOf keyPrefix k with
    | .malformed => some (.malformedKey k)
    | _ => none

/-- The ids of the queues that have settings, in ascending order. -/
def queueIds (keyPrefix : String) (properties : Dict String) : List QueueId :=
  (Dict.ofList (properties.keys.filterMap fun k =>
    match roleOf keyPrefix k with
    | .setting queue _ => some (queue, ())
    | _ => none)).keys

/-- The settings of one queue. -/
def sectionOf (keyPrefix : String) (properties : Dict String) (queue : QueueId) : Section :=
  Dict.ofList (properties.entries.filterMap fun (key, value) =>
    match roleOf keyPrefix key with
    | .setting q name => if q = queue then some (name, value) else none
    | _ => none)

/-- Read the settings of one queue. -/
def parseQueue (keyPrefix : String) (properties : Dict String) (queue : QueueId) :
    Except (List Problem) QueueConfig :=
  match (sectionOf keyPrefix properties queue).parse queue with
  | .ok config => .ok config
  | .error fs => .error (fs.map (.setting queue))

/-- The problems of a reading, if it has failed. -/
def problemsOf {α : Type} : Except (List Problem) α → List Problem
  | .ok _ => []
  | .error ps => ps

/-- The result of a reading, if it has succeeded. -/
def resultOf? {α : Type} : Except (List Problem) α → Option α
  | .ok a => some a
  | .error _ => none

/-- Read the settings of all queues. -/
def parse (keyPrefix : String) (properties : Dict String) : Except (List Problem) (List QueueConfig) :=
  let queues := (queueIds keyPrefix properties).map (parseQueue keyPrefix properties)
  match malformedKeys keyPrefix properties ++ queues.flatMap problemsOf with
  | [] => .ok (queues.filterMap resultOf?)
  | problems => .error problems

/-! ### Files -/

/-- Why a file could not be read. -/
inductive FileFault
  | notFound
  | invalidData
  deriving DecidableEq, Repr

/-- What reading a file gives: its text, or a fault. -/
abbrev File := Except FileFault String

/-- A file of some bytes, which have to be UTF-8. -/
def File.ofBytes (bytes : ByteArray) : File :=
  match String.fromUTF8? bytes with
  | some s => .ok s
  | none => .error .invalidData

/-- Why a configuration could not be read. -/
inductive ConfigError
  /-- The first file, counted from zero, that could not be read. -/
  | unreadable (file : Nat) (fault : FileFault)
  /-- The lines that report the problems. -/
  | invalid (lines : List String)
  deriving DecidableEq, Repr

/-- The wording of the error that reports problems. -/
def invalidMessage (lines : List String) : String :=
  "cannot parse queue configs:\n" ++ String.intercalate "\n" lines

/-- Read properties from files one after the other. -/
def readFiles : Nat → Dict String → List File → Except ConfigError (Dict String)
  | _, properties, [] => .ok properties
  | i, properties, file :: files =>
    match file with
    | .ok text => readFiles (i + 1) (properties.merge (Properties.parse text)) files
    | .error fault => .error (.unreadable i fault)

/-- Read the settings of all queues below a prefix. -/
def parseReported (keyPrefix : String) (properties : Dict String) :
    Except ConfigError (List QueueConfig) :=
  match parse keyPrefix properties with
  | .ok configs => .ok configs
  | .error problems => .error (.invalid (problems.map (Problem.line keyPrefix)))

/-- Read a configuration from files. -/
def read (keyPrefix : String) (files : List File) : Except ConfigError (List QueueConfig) :=
  match readFiles 0 Dict.empty files with
  | .ok properties => parseReported keyPrefix properties
  | .error e => .error e

end DurableQueue.Config
