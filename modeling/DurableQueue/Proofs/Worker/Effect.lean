import DurableQueue.Proofs.Store.Rows
import DurableQueue.Proofs.Worker.Course

/-!
# The effect of an iteration

The processing modes draw the borders of transactions differently, and on an in-memory store that
does not fail they come to the same.

* `Surroundings` is all that an iteration depends on besides the store, the readings of its clocks
  included, and `Surroundings.answer` answers its requests;
* `carryOut` runs an iteration in a mode, and then the job that it has handed off;
* `effect` says what comes out of it: at most the picked row changes, as its `fate` says, and its
  listeners are told its `story`;
* `carryOut_eq_effect` is the main statement. Each function of an iteration has one lemma `run_…`.
-/

namespace DurableQueue

open Store Iteration

/-- What surrounds an iteration. The row clock is read at the pick and when a row is put back. -/
structure Surroundings (π : Type) where
  transformer : Transformer π
  shard : ShardId
  location : Location
  failureSettings : FailureSettings
  reenqueueSettings : ReenqueueSettings
  consumer : Task π → ConsumerOutcome
  /-- The time that the row clock shows at the pick. -/
  pickTime : Instant
  /-- The time that the row clock shows when a row is put back. -/
  changeTime : Instant
  /-- The readings of the clock that measures how long something takes. -/
  readings : Nat → Nat

/-- The in-memory store and what has been observed so far. -/
structure Situation where
  store : Store
  transaction : Transaction := .opened
  /-- The number of readings of the clock. -/
  looks : Nat := 0
  told : List (TaskRecord × TaskEvent) := []
  handedOff : List TaskRecord := []

/-- What comes out of an iteration: its status, what the listeners were told, and what the store
holds. -/
structure Effect where
  outcome : RunOutcome
  told : List (TaskRecord × TaskEvent)
  rows : List Row
  lastId : Nat
  schema : Schema

namespace Surroundings

variable {π : Type}

/-! ### Running an iteration -/

/-- The time that the row clock shows at a call. -/
def rowTime (env : Surroundings π) : StoreCall → Instant
  | .pick _ => env.pickTime
  | _ => env.changeTime

/-- Answer a request. -/
def answer (env : Surroundings π) : (r : TaskCall π) → Situation → r.Answer × Situation
  | .clock, x => (env.readings x.looks, { x with looks := x.looks + 1 })
  | .failureSettings, x => (env.failureSettings, x)
  | .reenqueueSettings, x => (env.reenqueueSettings, x)
  | .store c, x =>
    let (a, transaction, store) := c.answerIn (env.rowTime c) env.location x.transaction x.store
    (a, { x with transaction, store })
  | .consume task, x => (env.consumer task, x)
  | .notify record event, x => ((), { x with told := x.told ++ [(record, event)] })
  | .handOff record, x => ((), { x with handedOff := x.handedOff ++ [record] })

/-- Run an iteration in a mode, and the job that it has handed off. -/
def carryOut (env : Surroundings π) (mode : ProcessingMode) (s : Store) : Effect :=
  let (outcome, own) := (iteration env.transformer env.shard mode).run env.answer { store := s }
  let (_, last) := (workOff env.transformer env.shard own.handedOff).run env.answer own
  ⟨outcome, last.told, last.store.rows, last.store.lastId, last.store.schema⟩

/-! ### What comes out of it -/

/-- The time between two readings of the clock. -/
def took (env : Surroundings π) (first : Nat) : Delay :=
  .clamp (env.readings (first + 1) - env.readings first)

/-- What the consumer makes of a picked task. -/
def verdict (env : Surroundings π) (record : TaskRecord) : Except ProcessingError TaskResult :=
  match env.transformer.toObject record.payload with
  | .error e => .error (.payload e)
  | .ok payload =>
    match env.consumer (.ofRecord env.shard record payload) with
    | .error e => .error (.consumer e)
    | .panic p => .error (.panicked p)
    | .result result => .ok result

/-- How a result is applied: the row is removed, put back after a delay, or left as it is. -/
inductive Change
  | remove
  | putBack (delay : Delay)
  | leave

/-- The change that a result asks for, unless its delay cannot be computed. -/
def change (env : Surroundings π) (record : TaskRecord) :
    TaskResult → Except ProcessingError Change
  | .finish => .ok .remove
  | .reenqueue (some delay) => .ok (.putBack delay)
  | .reenqueue none => (plannedDelay env.reenqueueSettings record).map .putBack
  | .fail => .ok .leave

/-- What becomes of a picked task in the store. -/
def fate (env : Surroundings π) (record : TaskRecord) : Option TaskRecord :=
  match (env.verdict record).bind (env.change record) with
  | .ok .remove => none
  | .ok (.putBack delay) =>
    some { record with
      attempts := .zero
      reenqueueAttempts := record.reenqueueAttempts.next
      nextProcessAt := env.changeTime.shift delay }
  | .ok .leave => some record
  | .error _ => some record

/-- The events of the execution of a picked task, when the clock was read a number of times
before. -/
def execution (env : Surroundings π) (record : TaskRecord) (looks : Nat) : List TaskEvent :=
  match env.transformer.toObject record.payload with
  | .error _ => []
  | .ok payload =>
    match env.consumer (.ofRecord env.shard record payload) with
    | .result result => [.started, .executed result (env.took looks)]
    | _ => [.started]

/-- The events after the execution. -/
def ending : Except ProcessingError Change → List TaskEvent
  | .ok _ => [.finished]
  | .error e => [.crashed e, .finished]

/-- The events of a picked task. -/
def story (env : Surroundings π) (record : TaskRecord) : List TaskEvent :=
  .picked (env.took 0) :: env.execution record 2
    ++ ending ((env.verdict record).bind (env.change record))

/-- A row after it was picked. -/
def claimed (env : Surroundings π) (r : Row) : TaskRecord :=
  { r.record with
    attempts := r.record.attempts.next
    totalAttempts := r.record.totalAttempts.next
    nextProcessAt := env.pickTime.shift (env.failureSettings.delayForAttempt r.record.attempts) }

/-- The effect of an iteration, in whatever mode: nothing, or what becomes of the picked row. -/
def effect (env : Surroundings π) (s : Store) : Effect :=
  match s.candidate? env.pickTime env.location with
  | none => ⟨.ok .skipped, [], s.rows, s.lastId, s.schema⟩
  | some r =>
    let record := env.claimed r
    { outcome := .ok .processed
      told := (env.story record).map fun event => (record, event)
      rows := replaced s.rows r.id ((env.fate record).map fun record => { r with record })
      lastId := s.lastId
      schema := s.schema }

/-! ### The functions of an iteration -/

/-- The store after a change. -/
def settle (env : Surroundings π) (record : TaskRecord) (s : Store) :
    Except ProcessingError Change → Store
  | .ok .remove => (s.delete env.location record.id).2
  | .ok (.putBack delay) => (s.reenqueue env.changeTime env.location record.id delay).2
  | .ok .leave => s
  | .error _ => s

/-- The situation after the pick of a row. -/
def picked (env : Surroundings π) (s : Store) (r : Row) : Situation where
  store := s.update r.id (claim env.pickTime env.failureSettings)
  looks := 2
  told := [(env.claimed r, .picked (env.took 0))]

variable {env : Surroundings π} {record : TaskRecord} {result : TaskResult} {x : Situation}
  {s : Store}

theorem run_pickTask_of_none (h : s.candidate? env.pickTime env.location = none) :
    pickTask.run env.answer { store := s } = (.ok none, { store := s, looks := 1 }) := by
  have hpick := pick_of_none h env.failureSettings
  simp [pickTask, clock, Iteration.failureSettings, Iteration.store, Program.run, answer, rowTime,
    StoreCall.answerIn, Transaction.pick, Transaction.whenOpen, Transaction.opened, hpick]

theorem run_pickTask_of_some {r : Row} (h : s.candidate? env.pickTime env.location = some r) :
    pickTask.run env.answer { store := s } = (.ok (some (env.claimed r)), env.picked s r) := by
  have hpick := pick_of_some h env.failureSettings
  simp [pickTask, clock, Iteration.failureSettings, Iteration.store, notify, Program.run, answer,
    rowTime, StoreCall.answerIn, Transaction.pick, Transaction.whenOpen, Transaction.opened, hpick,
    took, claim, claimed, picked]

theorem run_execute (env : Surroundings π) (record : TaskRecord) (x : Situation) :
    ∃ looks, (execute env.transformer env.shard record).run env.answer x
      = (env.verdict record, { x with
          looks
          told := x.told ++ (env.execution record x.looks).map fun event => (record, event) }) := by
  unfold execute verdict execution
  cases hpayload : env.transformer.toObject record.payload with
  | error e => exact ⟨x.looks, by simp [Program.run]⟩
  | ok payload =>
    cases hconsumer : env.consumer (.ofRecord env.shard record payload) with
    | error e =>
      exact ⟨x.looks + 1, by simp [notify, clock, consume, Program.run, answer, hconsumer]⟩
    | panic p =>
      exact ⟨x.looks + 1, by simp [notify, clock, consume, Program.run, answer, hconsumer]⟩
    | result r =>
      exact ⟨x.looks + 2, by simp [notify, clock, consume, Program.run, answer, hconsumer, took]⟩

theorem run_applyResult (env : Surroundings π) (record : TaskRecord) (result : TaskResult)
    (hopen : x.transaction = .opened) :
    (applyResult record result).run env.answer x
      = ((env.change record result).map fun _ => (),
        { x with store := env.settle record x.store (env.change record result) }) := by
  obtain ⟨store, transaction, looks, told, jobs⟩ := x
  obtain rfl : transaction = .opened := hopen
  match result with
  | .fail => rfl
  | .finish => rfl
  | .reenqueue (some delay) => rfl
  | .reenqueue none =>
    cases hplan : plannedDelay env.reenqueueSettings record with
    | error e =>
      simp [applyResult, Iteration.reenqueueSettings, Program.run, answer, hplan, change,
        Except.map, settle]
    | ok delay =>
      simp [applyResult, Iteration.reenqueueSettings, Iteration.store, Program.run, answer, hplan,
        change, Except.map, settle, StoreCall.answerIn, Transaction.reenqueue, Transaction.whenOpen,
        Transaction.opened, ofChange, rowTime]

/-- A transaction of its own makes no difference to what a result does. -/
theorem run_applyDetached : ∃ transaction, (applyDetached record result).run env.answer x
    = ((env.change record result).map fun _ => (),
      { x with transaction, store := env.settle record x.store (env.change record result) }) := by
  by_cases hfail : result = .fail
  · subst hfail
    exact ⟨x.transaction, rfl⟩
  · have happly := run_applyResult env record result (x := { x with transaction := .opened }) rfl
    unfold applyDetached
    rw [if_neg hfail]
    cases hchange : env.change record result with
    | error e =>
      -- the transaction is released, which nobody sees
      refine ⟨.opened, ?_⟩
      simp [Iteration.store, Program.run, Program.run_bind, answer, StoreCall.answerIn, happly,
        hchange, Except.map, settle]
    | ok c =>
      have hcommit : Transaction.opened.complete = (.ok (), ⟨true⟩) := rfl
      refine ⟨⟨true⟩, ?_⟩
      simp [Iteration.store, Program.run, Program.run_bind, answer, StoreCall.answerIn, happly,
        hchange, Except.map, hcommit]

theorem run_report (env : Surroundings π) (record : TaskRecord) (x : Situation)
    (outcome : Except ProcessingError Change) :
    (report record (outcome.map fun _ => ())).run env.answer x
      = ((), { x with told := x.told ++ (ending outcome).map fun event => (record, event) }) := by
  cases outcome with
  | ok c => rfl
  | error e => simp [report, notify, Program.run, answer, Except.map, ending]

/-- What a picked task comes to, given that results are applied as they ask for, whatever becomes
of the transaction. -/
theorem run_processWith {apply : TaskResult → TaskProgram π (Except ProcessingError Unit)}
    {P : Transaction → Prop} (hx : P x.transaction)
    (happly : ∀ result y, P y.transaction → ∃ transaction, P transaction ∧
      (apply result).run env.answer y = ((env.change record result).map fun _ => (),
        { y with transaction, store := env.settle record y.store (env.change record result) })) :
    ∃ looks transaction, P transaction ∧
      (processWith env.transformer env.shard record apply).run env.answer x = ((), { x with
        looks, transaction
        store := env.settle record x.store ((env.verdict record).bind (env.change record))
        told := x.told ++ (env.execution record x.looks
          ++ ending ((env.verdict record).bind (env.change record))).map fun e => (record, e)
      }) := by
  obtain ⟨looks, hexecute⟩ := run_execute env record x
  unfold processWith
  rw [Program.bind_eq, Program.run_bind, hexecute]
  cases hverdict : env.verdict record with
  | error e =>
    refine ⟨looks, x.transaction, hx, ?_⟩
    have hreport := run_report env record { x with
      looks, told := x.told ++ (env.execution record x.looks).map fun e => (record, e) } (.error e)
    simpa [Except.map, Except.bind, settle, ending] using hreport
  | ok result =>
    obtain ⟨transaction, ht, happlied⟩ := happly result { x with
      looks, told := x.told ++ (env.execution record x.looks).map fun e => (record, e) } hx
    refine ⟨looks, transaction, ht, ?_⟩
    simp [Program.run_bind, happlied, run_report, Except.bind]

/-! ### The modes -/

@[simp] theorem lastId_settle (outcome : Except ProcessingError Change) :
    (env.settle record s outcome).lastId = s.lastId := by
  unfold settle
  split <;> simp

@[simp] theorem schema_settle (outcome : Except ProcessingError Change) :
    (env.settle record s outcome).schema = s.schema := by
  unfold settle
  split <;> simp

/-- The rows after a picked row has met its fate. -/
theorem rows_settle {r : Row} (h : s.candidate? env.pickTime env.location = some r) :
    (env.settle (env.claimed r) (env.picked s r).store
        ((env.verdict (env.claimed r)).bind (env.change (env.claimed r)))).rows
      = replaced s.rows r.id ((env.fate (env.claimed r)).map fun record => { r with record }) := by
  obtain ⟨hr, hat, -⟩ := candidate?_mem h
  have hrows : (s.update r.id (claim env.pickTime env.failureSettings)).rows
      = replaced s.rows r.id (some { r with record := env.claimed r }) := rows_update hr _
  have hmem : { r with record := env.claimed r }
      ∈ (s.update r.id (claim env.pickTime env.failureSettings)).rows :=
    mem_update.2 ⟨r, hr, (if_pos rfl).symm⟩
  have hrow : (s.update r.id (claim env.pickTime env.failureSettings)).row? env.location r.id
      = some { r with record := env.claimed r } := row?_eq_some_iff.2 ⟨hmem, rfl, hat⟩
  -- whatever replaces the claimed row replaces the row as it was before
  unfold fate
  cases (env.verdict (env.claimed r)).bind (env.change (env.claimed r)) with
  | error e => exact hrows
  | ok c =>
    cases c with
    | leave => exact hrows
    | remove =>
      show ((s.update r.id _).delete env.location r.id).2.rows = _
      rw [delete_of_some hrow, rows_keep_ne, hrows]
      exact replaced_replaced _ _ rfl
    | putBack delay =>
      show ((s.update r.id _).reenqueue env.changeTime env.location r.id delay).2.rows = _
      rw [reenqueue_of_some hrow]
      refine (rows_update hmem _).trans ?_
      rw [hrows]
      exact replaced_replaced _ _ rfl

theorem effect_of_none (h : s.candidate? env.pickTime env.location = none) :
    env.effect s = ⟨.ok .skipped, [], s.rows, s.lastId, s.schema⟩ := by
  simp [effect, h]

theorem run_pickCommitted_of_none (h : s.candidate? env.pickTime env.location = none) :
    pickCommitted.run env.answer { store := s }
      = (.ok none, { store := s, looks := 1, transaction := ⟨true⟩ }) := by
  show (Program.bind pickTask _).run env.answer { store := s } = _
  rw [Program.run_bind, run_pickTask_of_none h]
  rfl

theorem run_pickCommitted_of_some {r : Row} (h : s.candidate? env.pickTime env.location = some r) :
    pickCommitted.run env.answer { store := s } = (.ok (some (env.claimed r)),
      { env.picked s r with transaction := ⟨true⟩ }) := by
  show (Program.bind pickTask _).run env.answer { store := s } = _
  rw [Program.run_bind, run_pickTask_of_some h]
  rfl

theorem carryOut_of_alone {mode : ProcessingMode} {outcome : RunOutcome}
    (h : (iteration env.transformer env.shard mode).run env.answer { store := s } = (outcome, x))
    (hjobs : x.handedOff = []) :
    env.carryOut mode s = ⟨outcome, x.told, x.store.rows, x.store.lastId, x.store.schema⟩ := by
  simp [carryOut, h, hjobs, workOff, Program.run]

theorem carryOut_of_job {mode : ProcessingMode} {outcome : RunOutcome} {y : Situation}
    (h : (iteration env.transformer env.shard mode).run env.answer { store := s } = (outcome, x))
    (hjobs : x.handedOff = [record])
    (hjob : (processDetached env.transformer env.shard record).run env.answer x = ((), y)) :
    env.carryOut mode s = ⟨outcome, y.told, y.store.rows, y.store.lastId, y.store.schema⟩ := by
  simp [carryOut, h, hjobs, workOff, Program.run, Program.run_bind, hjob]

theorem carryOut_of_none (h : s.candidate? env.pickTime env.location = none)
    (mode : ProcessingMode) : env.carryOut mode s = env.effect s := by
  have hpicked := run_pickCommitted_of_none h
  have hrun : (iteration env.transformer env.shard mode).run env.answer { store := s }
      = (.ok .skipped, { store := s, looks := 1, transaction := ⟨true⟩ }) := by
    cases mode with
    | separateTransactions =>
      show (Program.bind pickCommitted _).run env.answer _ = _
      rw [Program.run_bind, hpicked]
      rfl
    | wrapInTransaction =>
      show (Program.bind pickTask _).run env.answer { store := s } = _
      rw [Program.run_bind, run_pickTask_of_none h]
      rfl
    | useExternalExecutor =>
      show (Program.bind pickCommitted _).run env.answer _ = _
      rw [Program.run_bind, hpicked]
      rfl
  rw [effect_of_none h, carryOut_of_alone hrun rfl]

/-- A picked task that is processed meets its fate, however its result is applied. -/
theorem run_processWith_picked {r : Row} (h : s.candidate? env.pickTime env.location = some r)
    {apply : TaskResult → TaskProgram π (Except ProcessingError Unit)} {P : Transaction → Prop}
    {transaction : Transaction} (htransaction : P transaction) (handedOff : List TaskRecord)
    (happly : ∀ result y, P y.transaction → ∃ transaction, P transaction ∧
      (apply result).run env.answer y = ((env.change (env.claimed r) result).map fun _ => (),
        { y with
          transaction
          store := env.settle (env.claimed r) y.store (env.change (env.claimed r) result) })) :
    ∃ x, (processWith env.transformer env.shard (env.claimed r) apply).run env.answer
        { env.picked s r with transaction, handedOff } = ((), x) ∧
      P x.transaction ∧ x.handedOff = handedOff ∧
      ⟨.ok .processed, x.told, x.store.rows, x.store.lastId, x.store.schema⟩ = env.effect s := by
  obtain ⟨looks, t, ht, hrun⟩ :=
    run_processWith (x := { env.picked s r with transaction, handedOff }) htransaction happly
  refine ⟨_, hrun, ht, rfl, ?_⟩
  rw [rows_settle h, lastId_settle, schema_settle]
  simp [effect, h, picked, story]

/-- A picked task that is processed outside of transactions. -/
theorem run_processDetached_picked {r : Row} (h : s.candidate? env.pickTime env.location = some r)
    (transaction : Transaction) (handedOff : List TaskRecord) :
    ∃ x, (processDetached env.transformer env.shard (env.claimed r)).run env.answer
        { env.picked s r with transaction, handedOff } = ((), x) ∧ x.handedOff = handedOff ∧
      ⟨.ok .processed, x.told, x.store.rows, x.store.lastId, x.store.schema⟩ = env.effect s := by
  have htrivial : (fun _ : Transaction => True) transaction := trivial
  obtain ⟨x, hrun, -, hjobs, heffect⟩ :=
    run_processWith_picked h htrivial handedOff fun result y _ =>
      let ⟨t, ht⟩ := run_applyDetached
      ⟨t, trivial, ht⟩
  exact ⟨x, hrun, hjobs, heffect⟩

/-- A picked task that is processed in the transaction of its pick, which stays open. -/
theorem run_process_picked {r : Row} (h : s.candidate? env.pickTime env.location = some r) :
    ∃ x, (process env.transformer env.shard (env.claimed r)).run env.answer (env.picked s r)
        = ((), x) ∧ x.transaction = .opened ∧ x.handedOff = [] ∧
      ⟨.ok .processed, x.told, x.store.rows, x.store.lastId, x.store.schema⟩ = env.effect s :=
  run_processWith_picked (P := (· = .opened)) h rfl [] fun _ _ hopen =>
    ⟨.opened, rfl, (run_applyResult env _ _ hopen).trans (by rw [← hopen])⟩

theorem carryOut_of_some {r : Row} (h : s.candidate? env.pickTime env.location = some r)
    (mode : ProcessingMode) : env.carryOut mode s = env.effect s := by
  have hpicked := run_pickCommitted_of_some h
  cases mode with
  | separateTransactions =>
    obtain ⟨x, hrun, hjobs, heffect⟩ := run_processDetached_picked h ⟨true⟩ []
    refine (carryOut_of_alone ?_ hjobs).trans heffect
    show (Program.bind pickCommitted _).run env.answer _ = _
    rw [Program.run_bind, hpicked]
    show (Program.bind (processDetached _ _ _) _).run env.answer _ = _
    rw [Program.run_bind]
    exact congrArg (fun p : Unit × Situation => (Except.ok RunStatus.processed, p.2)) hrun
  | wrapInTransaction =>
    obtain ⟨⟨store, transaction, looks, told, jobs⟩, hrun, hopen, hjobs, heffect⟩ :=
      run_process_picked h
    obtain rfl : transaction = .opened := hopen
    have hcommitted : (iteration env.transformer env.shard .wrapInTransaction).run env.answer
        { store := s } = (.ok .processed, ⟨store, ⟨true⟩, looks, told, jobs⟩) := by
      show (Program.bind pickTask _).run env.answer { store := s } = _
      rw [Program.run_bind, run_pickTask_of_some h]
      show (Program.bind (process _ _ _) _).run env.answer _ = _
      rw [Program.run_bind, hrun]
      rfl
    exact (carryOut_of_alone hcommitted hjobs).trans heffect
  | useExternalExecutor =>
    -- here it is the job that comes to the effect
    obtain ⟨x, hrun, -, heffect⟩ := run_processDetached_picked h ⟨true⟩ [env.claimed r]
    refine (carryOut_of_job ?_ rfl hrun).trans heffect
    show (Program.bind pickCommitted _).run env.answer _ = _
    rw [Program.run_bind, hpicked]
    rfl

/-- **The processing modes have the same effect.** Without a fault of the store, an iteration in
any mode comes to the same status, events and rows. -/
theorem carryOut_eq_effect (env : Surroundings π) (mode : ProcessingMode) (s : Store) :
    env.carryOut mode s = env.effect s := by
  cases h : s.candidate? env.pickTime env.location with
  | none => exact carryOut_of_none h mode
  | some r => exact carryOut_of_some h mode

end Surroundings

end DurableQueue
