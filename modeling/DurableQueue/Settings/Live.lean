import DurableQueue.Settings.Cell
import DurableQueue.Settings.Queue

/-!
# Live settings of queues

The live settings of a queue are five cells, one for each group, and are held by reference. A copy
of them holds the same cells, so that what is changed through one is seen through the other.

* `LiveSettings` are the cells of one holder. `LiveSettings.setGroup` changes one group, and
  `LiveSettings.apply` changes them all, one after the other, and reports the changes. A group whose
  change is refused stays as it is;
* `Cells` are all cells there are, and `Addresses` say which of them some settings hold. `load` and
  `store` take the cells of a holder out and put them back, `create` makes new settings, and
  `replace` takes a new cell for one of the groups;
* `GivenSettings` are settings to be applied, by their values or by reference.
-/

namespace DurableQueue

/-- An observer of processing settings: the pool of a queue on a shard, or somebody else. -/
inductive ProcessingObserver (ω : Type)
  | pool (queue : QueueId) (shard : ShardId)
  | other (o : ω)
  deriving DecidableEq, Repr

/-- How observers other than pools answer when they are told the old and the new value of a group,
and how that changes a state of theirs. -/
abbrev Judge (ω υ : Type) := ω → GroupValue → GroupValue → υ → Except SettingError Unit × υ

/-- How pools get the size that the thread count says. -/
abbrev Resize (σ : Type) := QueueId → ShardId → Count → σ → σ

/-- Tell an observer of the processing settings a change. A pool follows the thread count. -/
def tellProcessing {ω υ σ : Type} (judge : Judge ω υ) (resize : Resize σ) :
    Cell.Tell ProcessingSettings (ProcessingObserver ω) (σ × υ)
  | .pool queue shard, old, new, (s, u) =>
    (.ok (), if old.threadCount = new.threadCount then s
      else resize queue shard new.threadCount s, u)
  | .other o, old, new, (s, u) =>
    let (r, u) := judge o (.processing old) (.processing new) u
    (r, s, u)

/-- Tell an observer of another group a change. -/
def tellGroup {α ω υ : Type} (judge : Judge ω υ) (of : α → GroupValue) : Cell.Tell α ω υ :=
  fun o old new u => judge o (of old) (of new) u

/-! ### The cells of one holder -/

/-- The cells of some settings. -/
structure LiveSettings (ω : Type) where
  processing : Cell ProcessingSettings (ProcessingObserver ω)
  poll : Cell PollSettings ω
  failure : Cell FailureSettings ω
  reenqueue : Cell ReenqueueSettings ω
  ext : Cell ExtSettings ω

namespace LiveSettings

variable {ω υ σ : Type}

/-- New cells with some values. -/
def new (s : QueueSettings) : LiveSettings ω where
  processing := .new s.processing
  poll := .new s.poll
  failure := .new s.failure
  reenqueue := .new s.reenqueue
  ext := .new s.ext

/-- The live values. -/
def settings (l : LiveSettings ω) : QueueSettings where
  processing := l.processing.value
  poll := l.poll.value
  failure := l.failure.value
  reenqueue := l.reenqueue.value
  ext := l.ext.value

/-- Let somebody observe one group. -/
def observe (l : LiveSettings ω) (group : Group) (o : ω) : LiveSettings ω :=
  match group with
  | .processing => { l with processing := (l.processing.register (.other o)).2 }
  | .poll => { l with poll := (l.poll.register o).2 }
  | .failure => { l with failure := (l.failure.register o).2 }
  | .reenqueue => { l with reenqueue := (l.reenqueue.register o).2 }
  | .ext => { l with ext := (l.ext.register o).2 }

variable (judge : Judge ω υ) (resize : Resize σ)

/-- Change one group; gives the summary of the change. -/
def setGroup (l : LiveSettings ω) (new : GroupValue) (s : σ) (u : υ) :
    String × LiveSettings ω × σ × υ :=
  match new with
  | .processing v =>
    let (summary, processing, s, u) := l.processing.set (tellProcessing judge resize) v (s, u)
    (summary, { l with processing }, s, u)
  | .poll v =>
    let (summary, poll, u) := l.poll.set (tellGroup judge .poll) v u
    (summary, { l with poll }, s, u)
  | .failure v =>
    let (summary, failure, u) := l.failure.set (tellGroup judge .failure) v u
    (summary, { l with failure }, s, u)
  | .reenqueue v =>
    let (summary, reenqueue, u) := l.reenqueue.set (tellGroup judge .reenqueue) v u
    (summary, { l with reenqueue }, s, u)
  | .ext v =>
    let (summary, ext, u) := l.ext.set (tellGroup judge .ext) v u
    (summary, { l with ext }, s, u)

/-- New processing settings with the live mode, which cannot change any more. -/
def keepingMode (l : LiveSettings ω) (new : ProcessingSettings) : ProcessingSettings :=
  { new with mode := l.processing.value.mode }

/-- Change all settings but the processing mode, one group after the other; gives the summaries of
the changes, separated by commas. -/
def apply (l : LiveSettings ω) (new : QueueSettings) (s : σ) (u : υ) :
    String × LiveSettings ω × σ × υ :=
  let (processing, l, s, u) :=
    l.setGroup judge resize (.processing (l.keepingMode new.processing)) s u
  let (poll, l, s, u) := l.setGroup judge resize (.poll new.poll) s u
  let (failure, l, s, u) := l.setGroup judge resize (.failure new.failure) s u
  let (reenqueue, l, s, u) := l.setGroup judge resize (.reenqueue new.reenqueue) s u
  let (ext, l, s, u) := l.setGroup judge resize (.ext new.ext) s u
  let changes := [processing, poll, failure, reenqueue, ext].filter (· ≠ "")
  (String.intercalate "," changes, l, s, u)

end LiveSettings

/-! ### All cells -/

/-- Which cells some settings hold: for each group the number of a block of cells. -/
abbrev Addresses := Group → Nat

/-- All cells, in blocks of one for each group. The blocks below `next` were given out. -/
structure Cells (ω : Type) where
  next : Nat := 0
  block : Nat → LiveSettings ω := fun _ => .new {}

namespace Cells

variable {ω υ : Type}

/-- The cells at some addresses. -/
def load (c : Cells ω) (a : Addresses) : LiveSettings ω where
  processing := (c.block (a .processing)).processing
  poll := (c.block (a .poll)).poll
  failure := (c.block (a .failure)).failure
  reenqueue := (c.block (a .reenqueue)).reenqueue
  ext := (c.block (a .ext)).ext

/-- Put cells back to their addresses. -/
def store (c : Cells ω) (a : Addresses) (l : LiveSettings ω) : Cells ω where
  next := c.next
  block n :=
    let b := c.block n
    { processing := if n = a .processing then l.processing else b.processing
      poll := if n = a .poll then l.poll else b.poll
      failure := if n = a .failure then l.failure else b.failure
      reenqueue := if n = a .reenqueue then l.reenqueue else b.reenqueue
      ext := if n = a .ext then l.ext else b.ext }

/-- Make settings of some values, with cells of their own. -/
def create (c : Cells ω) (s : QueueSettings) : Addresses × Cells ω :=
  (fun _ => c.next, ⟨c.next + 1, fun n => if n = c.next then .new s else c.block n⟩)

/-- Settings with a new cell for one of the groups and the same cells for the others. -/
def replace (c : Cells ω) (a : Addresses) (new : GroupValue) : Addresses × Cells ω :=
  (fun g => if g = new.group then c.next else a g, (c.create (QueueSettings.withGroup {} new)).2)

/-- All cells of some settings were given out. -/
def Holds (c : Cells ω) (a : Addresses) : Prop := ∀ g ∈ Group.all, a g < c.next

instance (c : Cells ω) (a : Addresses) : Decidable (c.Holds a) :=
  inferInstanceAs (Decidable (∀ g ∈ Group.all, a g < c.next))

/-- Change one group of settings that no pool observes; gives the summary of the change. -/
def setGroup (judge : Judge ω υ) (c : Cells ω) (a : Addresses) (new : GroupValue) (u : υ) :
    String × Cells ω × υ :=
  let (summary, l, (), u) := (c.load a).setGroup judge (fun _ _ _ s => s) new () u
  (summary, c.store a l, u)

end Cells

/-! ### Settings to be applied -/

/-- Settings that are given to be applied: values that nobody else can change, or cells, whose
values are read when it is their turn. -/
inductive GivenSettings
  | values (s : QueueSettings)
  | cells (a : Addresses)

/-- The values of given settings. -/
def Cells.read {ω : Type} (c : Cells ω) : GivenSettings → QueueSettings
  | .values s => s
  | .cells a => (c.load a).settings

/-- A place and settings that are given to be applied to the queue there. -/
structure GivenConfig where
  location : Location
  settings : GivenSettings

/-- A configuration is given by its values. -/
def QueueConfig.given (c : QueueConfig) : GivenConfig := ⟨c.location, .values c.settings⟩

end DurableQueue
