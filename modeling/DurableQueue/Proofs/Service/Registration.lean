import DurableQueue.Proofs.Service.Holders

/-!
# Registrations

A registration builds the pools of a queue shard by shard and may have to give up at any of them.
The service sees nothing of this: it gets the whole queue or it stays as it is.

* `Buildable` says that the iterations of a queue can be built on a shard, and `buildPools_cases`
  what becomes of building the pools of several shards;
* `Service.add` adds a queue that was built. `Service.enroll_cases` lists all that a registration
  can come to, and `register_cases` does so for settings with cells of their own and a consumer that
  answers alike on all shards.
-/

namespace DurableQueue

/-- The iterations of a queue can be built on a shard: its mode needs no executor, or its consumer
offers one there. -/
def Buildable (mode : ProcessingMode) (offers : ShardId → Bool) (shard : ShardId) : Prop :=
  mode = .useExternalExecutor → offers shard = true

variable {A : Signature} {ω : Type} {mode : ProcessingMode} {offers : ShardId → Bool}

theorem checkExecutor_of_buildable {shard : ShardId} (queue : QueueId)
    (h : Buildable mode offers shard) : checkExecutor queue mode (offers shard) = .ok () := by
  refine if_neg fun hnot => ?_
  exact absurd (h hnot.1) (by simp [hnot.2])

theorem checkExecutor_of_not_buildable {shard : ShardId} (queue : QueueId)
    (h : ¬ Buildable mode offers shard) :
    checkExecutor queue mode (offers shard) = .error (.executorRequired queue) := by
  unfold Buildable at h
  exact if_pos (by simpa using h)

/-- Either every shard gets a pool, or there is one on which the iterations cannot be built. -/
theorem buildPools_cases (queue : QueueId) (mode : ProcessingMode) (offers : ShardId → Bool)
    (shards : List ShardId) (pools : Dict (Pool A)) :
    ((∀ shard ∈ shards, Buildable mode offers shard) ∧
      buildPools queue mode offers shards pools
        = .ok (shards.foldl (fun pools shard => pools.insert shard .new) pools)) ∨
    ((∃ shard ∈ shards, ¬ Buildable mode offers shard) ∧
      buildPools queue mode offers shards pools = .error (.executorRequired queue)) := by
  induction shards generalizing pools with
  | nil => exact .inl ⟨nofun, rfl⟩
  | cons shard shards ih =>
    by_cases h : Buildable mode offers shard
    · have hstep : buildPools queue mode offers (shard :: shards) pools
          = buildPools queue mode offers shards (pools.insert shard .new) := by
        rw [buildPools, checkExecutor_of_buildable queue h]
      rcases ih (pools.insert shard .new) with ⟨hall, hok⟩ | ⟨⟨other, hmem, hother⟩, herror⟩
      · exact .inl ⟨List.forall_mem_cons.2 ⟨h, hall⟩, hstep.trans hok⟩
      · exact .inr ⟨⟨other, List.mem_cons_of_mem _ hmem, hother⟩, hstep.trans herror⟩
    · refine .inr ⟨⟨shard, List.mem_cons_self, h⟩, ?_⟩
      rw [buildPools, checkExecutor_of_not_buildable queue h]

/-! ### New queues -/

/-- A queue that nobody has started. -/
def QueueEntry.new (location : Location) (address : Addresses) (mode : ProcessingMode)
    (shards : List ShardId) : QueueEntry A where
  table := location.table
  idSequence := location.idSequence
  mode
  address
  pools := .ofList (shards.map fun s => (s, .new))

/-- A queue that nobody has started, with the cells of its settings. -/
def LiveQueue.new (location : Location) (address : Addresses) (l : LiveSettings ω)
    (shards : List ShardId) : LiveQueue A ω :=
  { QueueEntry.new location address l.processing.value.mode shards, l with
    queue := location.queue }

/-- The pools of a new queue are new. -/
theorem LiveQueue.eq_new_of_get {location : Location} {address : Addresses} {l : LiveSettings ω}
    {shards : List ShardId} {shard : ShardId} {p : Pool A}
    (hp : (new location address l shards : LiveQueue A ω).pools.get? shard = some p) :
    p = .new := by
  rw [new, QueueEntry.new, Dict.get?_ofList] at hp
  have hmem := List.mem_reverse.1 (Dict.mem_of_lookup_eq_some hp)
  obtain ⟨s, -, heq⟩ := List.mem_map.1 hmem
  exact (Prod.mk.inj heq).2.symm

namespace Service

/-- Add a queue that was built. -/
def add (s : Service A ω) (location : Location) (address : Addresses) : Service A ω :=
  { s with
    entries := s.entries.insert location.queue
      (.new location address (s.mode address) s.shards) }

/-- Add a queue that was built, with cells of its own. -/
def addNew (s : Service A ω) (config : QueueConfig) : Service A ω :=
  { s with cells := (s.cells.create config.settings).2 }.add config.location
    (s.cells.create config.settings).1

theorem get?_add (s : Service A ω) (location : Location) (address : Addresses) (queue : QueueId) :
    (s.add location address).queues.get? queue =
      if queue = location.queue then some (.new location address (s.cells.load address) s.shards)
      else s.queues.get? queue := by
  rw [get?_queues, add, Dict.get?_insert, get?_queues]
  split
  next heq =>
    subst heq
    rfl
  next => rfl

/-- A registration finds the queue registered already, adds it with a new pool on every shard, or
gives up on a shard. Only the second changes the service. -/
theorem enroll_cases (s : Service A ω) (location : Location) (address : Addresses)
    (offers : ShardId → Bool) :
    (s.queues.contains location.queue = true ∧
      s.enroll location address offers = (.ok false, s)) ∨
    (s.queues.contains location.queue = false ∧
      (∀ shard ∈ s.shards, Buildable (s.mode address) offers shard) ∧
      s.enroll location address offers = (.ok true, s.add location address)) ∨
    (s.queues.contains location.queue = false ∧
      (∃ shard ∈ s.shards, ¬ Buildable (s.mode address) offers shard) ∧
      s.enroll location address offers = (.error (.executorRequired location.queue), s)) := by
  rw [contains_queues]
  cases hcontains : s.entries.contains location.queue with
  | true => exact .inl ⟨rfl, by simp [enroll, hcontains]⟩
  | false =>
    right
    rcases buildPools_cases (A := A) location.queue (s.mode address) offers s.shards .empty with
      ⟨hall, h⟩ | ⟨hsome, h⟩
    · refine .inl ⟨rfl, hall, ?_⟩
      simp only [mode] at h
      simp only [enroll, hcontains, h, add, QueueEntry.new, Dict.ofList, List.foldl_map]
      rfl
    · refine .inr ⟨rfl, hsome, ?_⟩
      simp only [mode] at h
      simp [enroll, hcontains, h]

theorem register_cases (s : Service A ω) (config : QueueConfig) (hasExecutor : Bool) :
    (s.register config hasExecutor = .ok (false, s)) ∨
    (s.queues.contains config.location.queue = false ∧
      s.register config hasExecutor = .ok (true, s.addNew config)) ∨
    (s.register config hasExecutor = .error (.executorRequired config.location.queue)) := by
  have h := { s with cells := (s.cells.create config.settings).2 }.enroll_cases config.location
    (s.cells.create config.settings).1 fun _ => hasExecutor
  simp only [register, addNew, Cells.create, contains_queues] at h ⊢
  rcases h with ⟨-, h⟩ | ⟨hnew, -, h⟩ | ⟨-, -, h⟩
  · exact .inl (by rw [h])
  · exact .inr (.inl ⟨hnew, by rw [h]⟩)
  · exact .inr (.inr (by rw [h]))

end Service

end DurableQueue
