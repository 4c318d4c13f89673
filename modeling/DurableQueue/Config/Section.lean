import DurableQueue.Config.Problem
import DurableQueue.Settings.Queue

/-!
# The section of a queue

A section holds the settings of one queue as texts, by the names of the settings.

* `Section.parse` reads a section into the configuration of the queue, or lists every fault: the
  unknown settings in ascending order, then the faults of the known ones in a fixed order;
* `Section.readReenqueue` reads the re-enqueue settings, of which a type needs exactly its own.

Settings that are absent have the values of `QueueSettings`.
-/

namespace DurableQueue.Config

/-- The settings of one queue by their names. -/
abbrev Section := Dict String

namespace Section

/-- What the names of additional settings start with. -/
def additionalPrefix : List Char := "additional-settings.".toList

/-- The names of the known settings. -/
def knownSettings : List String :=
  ["table", "id-sequence", "between-task-timeout", "no-task-timeout", "fatal-crash-timeout",
   "thread-count", "processing-mode", "retry-type", "retry-interval", "reenqueue-retry-type",
   "reenqueue-retry-delay", "reenqueue-retry-plan", "reenqueue-retry-initial-delay",
   "reenqueue-retry-step", "reenqueue-retry-ratio"]

/-- The name of an additional setting behind the common start of such names. -/
def additionalName? (setting : String) : Option String :=
  (Text.stripPrefix additionalPrefix setting.toList).map String.ofList

/-- A setting that has a meaning. -/
def isKnown (setting : String) : Bool :=
  knownSettings.contains setting || (additionalName? setting).isSome

/-! ### Single settings -/

/-- Read a setting, if it is there. -/
def read {α : Type} (parse : String → Except Fault α) (s : Section) (setting : String) :
    Except SettingFault (Option α) :=
  match s.get? setting with
  | none => .ok none
  | some raw =>
    match parse raw with
    | .ok a => .ok (some a)
    | .error f => .error ⟨setting, f⟩

/-- Read a delay. -/
def parseDelay (raw : String) : Except Fault Delay :=
  match Literal.parse raw with
  | .ok d => .ok d
  | .error e => .error (.literal e)

/-- Read delays separated by commas, at least one of them. -/
def parsePlan (raw : String) : Except Fault (List Delay) :=
  match Literal.parseList raw with
  | .ok [] => .error .emptyPlan
  | .ok ds => .ok ds
  | .error e => .error (.literal e)

/-- Read a counter. -/
def parseCount (raw : String) : Except Fault Count :=
  match Decimal.readUpTo Decimal.max32 raw.toList with
  | .ok n => .ok (Count.clamp n)
  | .error e => .error (.value raw e.message)

/-- Read the name of an alternative. -/
def parseName {α : Type} (parse : String → Except String α) (raw : String) : Except Fault α :=
  match parse raw with
  | .ok a => .ok a
  | .error e => .error (.value raw e)

/-- The fault of a setting that was read, if it has one. -/
def faults {α : Type} : Except SettingFault α → List SettingFault
  | .ok _ => []
  | .error f => [f]

/-- The value of a setting that was read, or a default. -/
def valueOr {α : Type} (default : α) : Except SettingFault (Option α) → α
  | .ok (some a) => a
  | _ => default

/-! ### Re-enqueue settings -/

/-- The settings that carry parameters of re-enqueue types. -/
def reenqueueParameters : List String :=
  ["reenqueue-retry-delay", "reenqueue-retry-plan", "reenqueue-retry-initial-delay",
   "reenqueue-retry-step", "reenqueue-retry-ratio"]

/-- The settings that a re-enqueue type needs. -/
def parametersOf : ReenqueueRetryType → List String
  | .manual => []
  | .fixed => ["reenqueue-retry-delay"]
  | .sequential => ["reenqueue-retry-plan"]
  | .arithmetic => ["reenqueue-retry-initial-delay", "reenqueue-retry-step"]
  | .geometric => ["reenqueue-retry-initial-delay", "reenqueue-retry-ratio"]

/-- The parameters that a re-enqueue type lacks, then those it has no use for. -/
def parameterFaults (s : Section) (type : ReenqueueRetryType) : List SettingFault :=
  let needed := parametersOf type
  ((needed.filter fun p => !s.contains p).map fun p => ⟨p, .requiredByType⟩) ++
    ((reenqueueParameters.filter fun p => s.contains p && !needed.contains p).map
      fun p => ⟨p, .unusedByType⟩)

/-- Read a setting that is there. -/
def readPresent {α : Type} (parse : String → Except Fault α) (s : Section) (setting : String) :
    Except SettingFault α :=
  match read parse s setting with
  | .ok (some a) => .ok a
  | .ok none => .error ⟨setting, .requiredByType⟩
  | .error f => .error f

/-- Read one parameter. -/
def readOne {α : Type} (build : α → ReenqueueSettings) (a : Except SettingFault α) :
    Except (List SettingFault) ReenqueueSettings :=
  match a with
  | .ok a => .ok (build a)
  | .error f => .error [f]

/-- Read two parameters and report the faults of both. -/
def readTwo {α β : Type} (build : α → β → ReenqueueSettings) (a : Except SettingFault α)
    (b : Except SettingFault β) : Except (List SettingFault) ReenqueueSettings :=
  match a, b with
  | .ok a, .ok b => .ok (build a b)
  | a, b => .error (faults a ++ faults b)

/-- Read the parameters of a re-enqueue type. -/
def readParameters (s : Section) : ReenqueueRetryType →
    Except (List SettingFault) ReenqueueSettings
  | .manual => .ok .manual
  | .fixed => readOne .fixed (readPresent parseDelay s "reenqueue-retry-delay")
  | .sequential => readOne .sequential (readPresent parsePlan s "reenqueue-retry-plan")
  | .arithmetic =>
    readTwo .arithmetic (readPresent parseDelay s "reenqueue-retry-initial-delay")
      (readPresent parseDelay s "reenqueue-retry-step")
  | .geometric =>
    readTwo .geometric (readPresent parseDelay s "reenqueue-retry-initial-delay")
      (readPresent parseCount s "reenqueue-retry-ratio")

/-- Read the re-enqueue settings. A wrong set of parameters hides faults within them. -/
def readReenqueue (s : Section) : Except (List SettingFault) ReenqueueSettings :=
  match read (parseName ReenqueueRetryType.parse) s "reenqueue-retry-type" with
  | .error f => .error [f]
  | .ok type =>
    let type := type.getD .manual
    match parameterFaults s type with
    | [] => do
      let settings ← readParameters s type
      match settings.validate with
      | .ok () => .ok settings
      | .error e => .error [⟨"reenqueue-retry-type", .inconsistent e⟩]
    | fs => .error fs

/-! ### The whole section -/

/-- The additional settings. -/
def additional (s : Section) : ExtSettings :=
  ⟨Dict.ofList (s.entries.filterMap fun (setting, value) =>
    (additionalName? setting).map fun name => (name, value))⟩

/-- The place of a queue in a table, with the sequence that the section may name. -/
def location (s : Section) (queue : QueueId) (table : String) : Location :=
  match s.get? "id-sequence" with
  | none => .of queue table
  | some sequence => (Location.of queue table).withIdSequence sequence

/-- Read the section of a queue. -/
def parse (queue : QueueId) (s : Section) : Except (List SettingFault) QueueConfig :=
  let unknown := (s.keys.filter fun k => !isKnown k).map fun k => (⟨k, .unknown⟩ : SettingFault)
  let table := s.get? "table"
  let between := read parseDelay s "between-task-timeout"
  let noTask := read parseDelay s "no-task-timeout"
  let crash := read parseDelay s "fatal-crash-timeout"
  let threads := read parseCount s "thread-count"
  let mode := read (parseName ProcessingMode.parse) s "processing-mode"
  let retryType := read (parseName FailureRetryType.parse) s "retry-type"
  let interval := read parseDelay s "retry-interval"
  let reenqueue := readReenqueue s
  let found := unknown ++ (if table.isSome then [] else [⟨"table", .required⟩])
    ++ faults between ++ faults noTask ++ faults crash ++ faults threads ++ faults mode
    ++ faults retryType ++ faults interval
    ++ (match reenqueue with
      | .ok _ => []
      | .error fs => fs)
  match found, table, reenqueue with
  | [], some table, .ok reenqueue =>
    let poll : PollSettings := {}
    let processing : ProcessingSettings := {}
    let failure : FailureSettings := {}
    .ok
      { location := location s queue table
        settings :=
          { processing := ⟨valueOr processing.threadCount threads, valueOr processing.mode mode⟩
            poll := ⟨valueOr poll.betweenTasks between, valueOr poll.noTask noTask,
              valueOr poll.fatalCrash crash⟩
            failure := ⟨valueOr failure.retryType retryType,
              valueOr failure.retryInterval interval⟩
            reenqueue := reenqueue
            ext := additional s } }
  | found, _, _ => .error found

end Section

end DurableQueue.Config
