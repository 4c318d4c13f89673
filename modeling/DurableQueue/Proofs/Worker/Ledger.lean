import DurableQueue.Proofs.Program.Monitor
import DurableQueue.Worker.Iteration

/-!
# The ledger of an iteration

A ledger keeps what can be read off the requests of an iteration and their answers: whether a
transaction is open, what was picked, how the consumer has ended, what was done to the row. Which
requests may follow is a rule about the ledger.

* `Ledger`, and `Ledger.note` for an answer;
* `Ledger.Permits` is the rule, `discipline` the monitor with this rule;
* `Ledger.GivesUp` says when a transaction has to be given up instead of committed;
* `Ledger.Holds` and `Ledger.Decided` are the two states around the run of a consumer. Each
  function of an iteration has one lemma `…_obeys`, which says how it moves the ledger on.

No request rolls a transaction back: one that is not committed is released.
-/

namespace DurableQueue

open Iteration

variable {π : Type}

/-- What the answers so far say about an iteration. -/
structure Ledger where
  /-- A transaction is open. -/
  isOpen : Bool := false
  /-- In the last transaction a call on rows has failed, or a delay could not be computed. -/
  spoilt : Bool := false
  /-- The number of transactions that were to be begun. -/
  begun : Nat := 0
  picked : Option TaskRecord := none
  /-- The transaction of the pick has been committed. -/
  secured : Bool := false
  /-- How the consumer has ended. -/
  outcome : Option ConsumerOutcome := none
  /-- The delay by the settings that were read for a task to be put back. -/
  planned : Option (Except ProcessingError Delay) := none
  /-- The row was to be removed or put back. -/
  changed : Bool := false
  handedOff : List TaskRecord := []

namespace Ledger

/-- Note the answer to a call of the store. -/
def noteStore (l : Ledger) : (c : StoreCall) → c.Answer → Ledger
  | .begin, .ok _ => { l with begun := l.begun + 1, isOpen := true, spoilt := false }
  | .begin, .error _ => { l with begun := l.begun + 1 }
  | .pick _, .ok record => { l with picked := record }
  | .pick _, .error _ => { l with spoilt := true }
  | .enqueue _, _ => l
  | .delete _, .ok _ => { l with changed := true }
  | .delete _, .error _ => { l with changed := true, spoilt := true }
  | .reenqueue _ _, .ok _ => { l with changed := true }
  | .reenqueue _ _, .error _ => { l with changed := true, spoilt := true }
  | .commit, .ok _ => { l with isOpen := false, secured := l.picked.isSome }
  | .commit, .error _ => { l with isOpen := false }
  | .release, _ => { l with isOpen := false }

/-- Note the settings that were read for a task to be put back. -/
def notePlan (l : Ledger) (settings : ReenqueueSettings) : Ledger :=
  match l.picked.map (plannedDelay settings) with
  | some (.error e) => { l with planned := some (.error e), spoilt := true }
  | planned => { l with planned }

variable {l : Ledger}

@[simp] theorem outcome_noteStore (c : StoreCall) (a : c.Answer) :
    (l.noteStore c a).outcome = l.outcome := by
  unfold noteStore
  split <;> rfl

@[simp] theorem handedOff_noteStore (c : StoreCall) (a : c.Answer) :
    (l.noteStore c a).handedOff = l.handedOff := by
  unfold noteStore
  split <;> rfl

@[simp] theorem isOpen_notePlan (settings : ReenqueueSettings) :
    (l.notePlan settings).isOpen = l.isOpen := by
  unfold notePlan
  split <;> rfl

@[simp] theorem outcome_notePlan (settings : ReenqueueSettings) :
    (l.notePlan settings).outcome = l.outcome := by
  unfold notePlan
  split <;> rfl

@[simp] theorem changed_notePlan (settings : ReenqueueSettings) :
    (l.notePlan settings).changed = l.changed := by
  unfold notePlan
  split <;> rfl

@[simp] theorem handedOff_notePlan (settings : ReenqueueSettings) :
    (l.notePlan settings).handedOff = l.handedOff := by
  unfold notePlan
  split <;> rfl

@[simp] theorem picked_notePlan (settings : ReenqueueSettings) :
    (l.notePlan settings).picked = l.picked := by
  unfold notePlan
  split <;> rfl

/-- Note an answer. -/
def note (l : Ledger) : (c : TaskCall π) → c.Answer → Ledger
  | .clock, _ => l
  | .failureSettings, _ => l
  | .reenqueueSettings, settings => l.notePlan settings
  | .store c, answer => l.noteStore c answer
  | .consume _, outcome => { l with outcome := some outcome }
  | .notify _ _, _ => l
  | .handOff record, _ => { l with handedOff := l.handedOff ++ [record] }

/-- The open transaction has to be given up. When the pick and its result share a transaction,
only a failed pick does that. -/
def GivesUp (mode : ProcessingMode) (l : Ledger) : Prop :=
  l.spoilt = true ∧ (mode = .wrapInTransaction → l.picked = none)

/-- The delay with which the task is to be put back. -/
def PutBackAfter (l : Ledger) (delay : Delay) : Prop :=
  l.outcome = some (.result (.reenqueue (some delay))) ∨
    l.outcome = some (.result (.reenqueue none)) ∧ l.planned = some (.ok delay)

/-- The calls of the store that may be made. -/
def PermitsStore (mode : ProcessingMode) (l : Ledger) : StoreCall → Prop
  | .begin => l.isOpen = false ∧ (l.begun = 0 ∨ l.begun = 1 ∧ mode ≠ .wrapInTransaction ∧
      ∃ result, l.outcome = some (.result result) ∧ result ≠ .fail)
  | .pick _ => l.isOpen = true ∧ l.picked = none ∧ l.outcome = none
  | .enqueue _ => False
  | .delete id => l.isOpen = true ∧ l.changed = false ∧ l.outcome = some (.result .finish) ∧
      ∃ record, l.picked = some record ∧ id = record.id
  | .reenqueue id delay => l.isOpen = true ∧ l.changed = false ∧ l.PutBackAfter delay ∧
      ∃ record, l.picked = some record ∧ id = record.id
  | .commit => l.isOpen = true ∧ ¬ l.GivesUp mode
  | .release => l.isOpen = true ∧ l.GivesUp mode

/-- The task of the picked row, for the consumer. -/
def PermitsTask (transformer : Transformer π) (shard : ShardId) (l : Ledger) (task : Task π) :
    Prop :=
  ∃ record payload, l.picked = some record ∧ transformer.toObject record.payload = .ok payload ∧
    task = .ofRecord shard record payload

/-- The requests that may be made. -/
def Permits (transformer : Transformer π) (shard : ShardId) (mode : ProcessingMode) (l : Ledger) :
    TaskCall π → Prop
  | .clock => True
  | .failureSettings => l.isOpen = true
  | .reenqueueSettings => l.isOpen = true ∧ l.outcome = some (.result (.reenqueue none))
  | .store c => l.PermitsStore mode c
  | .consume task => l.outcome = none ∧ l.PermitsTask transformer shard task ∧
      (mode ≠ .wrapInTransaction → l.secured = true ∧ l.isOpen = false)
  | .notify record _ => l.picked = some record
  | .handOff record => mode = .useExternalExecutor ∧ l.picked = some record ∧ l.secured = true ∧
      l.isOpen = false ∧ l.handedOff = []

/-- A picked task is held, and the consumer has not run yet. It waits in the open transaction of
its pick, or outside of it. -/
structure Holds (mode : ProcessingMode) (record : TaskRecord) (l : Ledger) : Prop where
  picked : l.picked = some record
  outcome : l.outcome = none
  changed : l.changed = false
  spoilt : l.spoilt = false
  begun : l.begun = 1
  isOpen : l.isOpen = decide (mode = .wrapInTransaction)
  secured : mode ≠ .wrapInTransaction → l.secured = true

/-- The consumer has returned a result for a picked task, which was not applied yet. -/
structure Decided (record : TaskRecord) (result : TaskResult) (l : Ledger) : Prop where
  picked : l.picked = some record
  outcome : l.outcome = some (.result result)
  changed : l.changed = false
  spoilt : l.spoilt = false

end Ledger

open Ledger

/-- The monitor of iterations in a mode. -/
def discipline (transformer : Transformer π) (shard : ShardId) (mode : ProcessingMode) :
    Monitor (TaskCalls π) Ledger :=
  ⟨Permits transformer shard mode, note⟩

namespace Iteration

variable {transformer : Transformer π} {shard : ShardId} {mode : ProcessingMode} {l : Ledger}
  {record : TaskRecord} {result : TaskResult}

/-! ### Picking -/

theorem pickTask_obeys (hopen : l.isOpen = true) (hpicked : l.picked = none)
    (houtcome : l.outcome = none) :
    pickTask.Obeys (discipline transformer shard mode) (fun a t =>
      match a with
      | .ok record => t = { l with picked := record }
      | .error _ => t = { l with spoilt := true }) l := by
  refine Program.obeys_ask.2 ⟨trivial, fun started => ?_⟩
  refine Program.obeys_ask.2 ⟨hopen, fun failure => ?_⟩
  refine Program.obeys_ask.2 ⟨⟨hopen, hpicked, houtcome⟩, fun answer => ?_⟩
  match answer with
  | .error e => rfl
  | .ok none => rfl
  | .ok (some record) =>
    refine Program.obeys_ask.2 ⟨trivial, fun ended => ?_⟩
    exact Program.obeys_ask.2 ⟨rfl, fun _ => rfl⟩

/-- A pick of its own leaves no transaction open, and holds what it returns. -/
theorem pickCommitted_obeys (hmode : mode ≠ .wrapInTransaction) :
    pickCommitted.Obeys (discipline transformer shard mode) (fun a t =>
      t.isOpen = false ∧ t.handedOff = [] ∧ ∀ record, a = .ok (some record) → t.Holds mode record)
      {} := by
  refine Program.obeys_ask.2 ⟨⟨rfl, .inl rfl⟩, fun answer => ?_⟩
  match answer with
  | .error e => exact ⟨rfl, rfl, fun _ h => nomatch h⟩
  | .ok () =>
    refine (pickTask_obeys rfl rfl rfl).bind fun a t ht => ?_
    match a with
    | .error e =>
      -- the pick has failed, and its transaction is given up
      subst ht
      refine Program.obeys_ask.2 ⟨⟨rfl, rfl, fun _ => rfl⟩, fun _ => ?_⟩
      exact ⟨rfl, rfl, fun _ h => nomatch h⟩
    | .ok picked =>
      subst ht
      refine Program.obeys_ask.2 ⟨⟨rfl, fun h => nomatch h.1⟩, fun answer => ?_⟩
      match answer with
      | .error e => exact ⟨rfl, rfl, fun _ h => nomatch h⟩
      | .ok () =>
        refine ⟨rfl, rfl, fun record h => ?_⟩
        obtain rfl : picked = some record := by injection h
        exact ⟨rfl, rfl, rfl, rfl, rfl, (decide_eq_false hmode).symm, fun _ => rfl⟩

/-! ### Processing -/

/-- The consumer runs on the held task at most once. -/
theorem execute_obeys (h : l.Holds mode record) :
    (execute transformer shard record).Obeys (discipline transformer shard mode) (fun a t =>
      t.picked = some record ∧ t.isOpen = l.isOpen ∧ t.spoilt = false ∧ t.begun = 1 ∧
        ∀ result, a = .ok result → t.Decided record result) l := by
  unfold execute
  cases hpayload : transformer.toObject record.payload with
  | error e => exact ⟨h.picked, rfl, h.spoilt, h.begun, fun _ h => nomatch h⟩
  | ok payload =>
    refine Program.obeys_ask.2 ⟨h.picked, fun _ => ?_⟩
    refine Program.obeys_ask.2 ⟨trivial, fun started => ?_⟩
    have hborder (hmode : mode ≠ .wrapInTransaction) : l.secured = true ∧ l.isOpen = false :=
      ⟨h.secured hmode, by rw [h.isOpen, decide_eq_false hmode]⟩
    refine Program.obeys_ask.2 ⟨⟨h.outcome, ⟨record, payload, h.picked, hpayload, rfl⟩, hborder⟩,
      fun outcome => ?_⟩
    match outcome with
    | .error e => exact ⟨h.picked, rfl, h.spoilt, h.begun, fun _ h => nomatch h⟩
    | .panic p => exact ⟨h.picked, rfl, h.spoilt, h.begun, fun _ h => nomatch h⟩
    | .result result =>
      refine Program.obeys_ask.2 ⟨trivial, fun ended => ?_⟩
      refine Program.obeys_ask.2 ⟨h.picked, fun _ => ?_⟩
      refine ⟨h.picked, rfl, h.spoilt, h.begun, fun _ hr => ?_⟩
      obtain rfl := Except.ok.inj hr
      exact ⟨h.picked, rfl, h.changed, h.spoilt⟩

/-- Putting the row back spoils the open transaction exactly when it fails. -/
theorem putBack_obeys {delay : Delay} (hpicked : l.picked = some record) (hopen : l.isOpen = true)
    (hchanged : l.changed = false) (hspoilt : l.spoilt = false) (hdelay : l.PutBackAfter delay) :
    ((store (.reenqueue record.id delay)).bind fun a => .done (ofChange a)).Obeys
      (discipline transformer shard mode) (fun a t =>
        t.picked = some record ∧ t.isOpen = true ∧ (t.spoilt = true ↔ ∃ e, a = .error e)) l := by
  refine Program.obeys_ask.2 ⟨⟨hopen, hchanged, hdelay, record, hpicked, rfl⟩, fun answer => ?_⟩
  match answer with
  | .ok _ => exact ⟨hpicked, hopen, by simp [discipline, note, noteStore, hspoilt, ofChange]⟩
  | .error e => exact ⟨hpicked, hopen, by simp [discipline, note, noteStore, ofChange]⟩

/-- Applying a result spoils the open transaction exactly when it fails. -/
theorem applyResult_obeys (h : l.Decided record result) (hopen : l.isOpen = true) :
    (applyResult record result).Obeys (discipline transformer shard mode) (fun a t =>
      t.picked = some record ∧ t.isOpen = true ∧ (t.spoilt = true ↔ ∃ e, a = .error e)) l := by
  match result with
  | .fail => exact ⟨h.picked, hopen, by simp [h.spoilt]⟩
  | .finish =>
    refine Program.obeys_ask.2 ⟨⟨hopen, h.changed, h.outcome, record, h.picked, rfl⟩,
      fun answer => ?_⟩
    match answer with
    | .ok _ => exact ⟨h.picked, hopen, by simp [discipline, note, noteStore, h.spoilt, ofChange]⟩
    | .error e => exact ⟨h.picked, hopen, by simp [discipline, note, noteStore, ofChange]⟩
  | .reenqueue (some delay) =>
    exact putBack_obeys h.picked hopen h.changed h.spoilt (.inl h.outcome)
  | .reenqueue none =>
    refine Program.obeys_ask.2 ⟨⟨hopen, h.outcome⟩, fun settings => ?_⟩
    rw [Program.done_bind]
    show Program.Obeys _ _ _ (l.notePlan settings)
    -- the ledger computes the same delay as the iteration
    cases hplan : plannedDelay settings record with
    | error e =>
      have hnote : l.notePlan settings = { l with planned := some (.error e), spoilt := true } := by
        simp [notePlan, h.picked, hplan]
      rw [hnote]
      exact ⟨h.picked, hopen, iff_of_true rfl ⟨e, rfl⟩⟩
    | ok delay =>
      have hnote : l.notePlan settings = { l with planned := some (.ok delay) } := by
        simp [notePlan, h.picked, hplan]
      rw [hnote]
      exact putBack_obeys h.picked hopen h.changed h.spoilt (.inr ⟨h.outcome, rfl⟩)

/-- A transaction for the result is begun for a result that needs one, and ended. -/
theorem applyDetached_obeys (hmode : mode ≠ .wrapInTransaction) (h : l.Decided record result)
    (hopen : l.isOpen = false) (hbegun : l.begun = 1) :
    (applyDetached record result).Obeys (discipline transformer shard mode) (fun _ t =>
      t.picked = some record ∧ t.isOpen = false) l := by
  unfold applyDetached
  by_cases hfail : result = .fail
  · rw [if_pos hfail]
    exact ⟨h.picked, hopen⟩
  · -- the second transaction of the iteration
    rw [if_neg hfail]
    refine Program.obeys_ask.2 ⟨⟨hopen, .inr ⟨hbegun, hmode, result, h.outcome, hfail⟩⟩,
      fun answer => ?_⟩
    match answer with
    | .error e => exact ⟨h.picked, hopen⟩
    | .ok () =>
      have hdecided : Ledger.Decided record result
          { l with begun := l.begun + 1, isOpen := true, spoilt := false } :=
        ⟨h.picked, h.outcome, h.changed, rfl⟩
      refine (applyResult_obeys hdecided rfl).bind fun a t ⟨hpicked, hopen, hspoilt⟩ => ?_
      match a with
      | .error e =>
        have hgives : t.GivesUp mode := ⟨hspoilt.2 ⟨e, rfl⟩, fun h => absurd h hmode⟩
        exact Program.obeys_ask.2 ⟨⟨hopen, hgives⟩, fun _ => ⟨hpicked, rfl⟩⟩
      | .ok () =>
        have hkept : ¬ t.GivesUp mode := fun hgives => nomatch (hspoilt.1 hgives.1)
        refine Program.obeys_ask.2 ⟨⟨hopen, hkept⟩, fun answer => ?_⟩
        match answer with
        | .error e => exact ⟨hpicked, rfl⟩
        | .ok () => exact ⟨hpicked, rfl⟩

theorem report_obeys (hpicked : l.picked = some record) (outcome : Except ProcessingError Unit) :
    (report record outcome).Obeys (discipline transformer shard mode) (fun _ t => t = l) l := by
  match outcome with
  | .ok () => exact Program.obeys_ask.2 ⟨hpicked, fun _ => rfl⟩
  | .error e =>
    refine Program.obeys_ask.2 ⟨hpicked, fun _ => ?_⟩
    exact Program.obeys_ask.2 ⟨hpicked, fun _ => rfl⟩

/-- A held task is processed, given how a result is applied. -/
theorem processWith_obeys (h : l.Holds mode record)
    {apply : TaskResult → TaskProgram π (Except ProcessingError Unit)}
    (happly : ∀ result t, t.Decided record result → t.isOpen = l.isOpen → t.begun = 1 →
      (apply result).Obeys (discipline transformer shard mode) (fun _ t =>
        t.picked = some record ∧ t.isOpen = l.isOpen) t) :
    (processWith transformer shard record apply).Obeys (discipline transformer shard mode)
      (fun _ t => t.picked = some record ∧ t.isOpen = l.isOpen) l := by
  refine (execute_obeys h).bind fun a t ⟨hpicked, hopen, _, hbegun, hdecided⟩ => ?_
  match a with
  | .error e =>
    refine (report_obeys hpicked _).mono fun _ t' ht => ?_
    exact ht ▸ ⟨hpicked, hopen⟩
  | .ok result =>
    refine (happly result t (hdecided result rfl) hopen hbegun).bind fun a t' ht => ?_
    exact (report_obeys ht.1 a).mono fun _ _ h => h ▸ ht

theorem process_obeys (h : l.Holds .wrapInTransaction record) :
    (process transformer shard record).Obeys (discipline transformer shard .wrapInTransaction)
      (fun _ t => t.picked = some record ∧ t.isOpen = true) l := by
  have hopen : l.isOpen = true := h.isOpen
  rw [← hopen]
  refine processWith_obeys h fun result t ht hopen' _ => ?_
  exact (applyResult_obeys ht (hopen'.trans hopen)).mono fun _ _ h => ⟨h.1, h.2.1.trans hopen.symm⟩

theorem processDetached_obeys (hmode : mode ≠ .wrapInTransaction) (h : l.Holds mode record) :
    (processDetached transformer shard record).Obeys (discipline transformer shard mode)
      (fun _ t => t.picked = some record ∧ t.isOpen = false) l := by
  have hopen : l.isOpen = false := by rw [h.isOpen, decide_eq_false hmode]
  rw [← hopen]
  refine processWith_obeys h fun result t ht hopen' hbegun => ?_
  rw [hopen] at hopen' ⊢
  exact applyDetached_obeys hmode ht hopen' hbegun

/-! ### The modes -/

theorem commitAs_obeys {l : Ledger} (hopen : l.isOpen = true) (hkept : ¬ l.GivesUp mode)
    (status : RunStatus) :
    (commitAs status).Obeys (discipline transformer shard mode) (fun _ t =>
      t.isOpen = false) l := by
  refine Program.obeys_ask.2 ⟨⟨hopen, hkept⟩, fun answer => ?_⟩
  match answer with
  | .error e => rfl
  | .ok () => rfl

/-- An iteration that picks in a transaction of its own, given how it goes on with what it holds.
-/
theorem pickThen_obeys {post : RunOutcome → Ledger → Prop} (hmode : mode ≠ .wrapInTransaction)
    {go : TaskRecord → TaskProgram π Unit}
    (hnone : ∀ outcome t, t.isOpen = false → t.handedOff = [] → post outcome t)
    (hgo : ∀ record t, t.Holds mode record → t.handedOff = [] →
      (go record).Obeys (discipline transformer shard mode) (fun _ => post (.ok .processed)) t) :
    (pickThen go).Obeys (discipline transformer shard mode) post {} := by
  refine (pickCommitted_obeys hmode).bind fun a t ⟨hopen, hjobs, hholds⟩ => ?_
  match a with
  | .error e => exact hnone _ t hopen hjobs
  | .ok none => exact hnone _ t hopen hjobs
  | .ok (some record) => exact (hgo record t (hholds record rfl) hjobs).bind fun _ _ h => h

theorem wrapped_obeys :
    (wrapped transformer shard).Obeys (discipline transformer shard .wrapInTransaction)
      (fun _ t => t.isOpen = false) {} := by
  refine Program.obeys_ask.2 ⟨⟨rfl, .inl rfl⟩, fun answer => ?_⟩
  match answer with
  | .error e => rfl
  | .ok () =>
    refine (pickTask_obeys rfl rfl rfl).bind fun a t ht => ?_
    match a with
    | .error e =>
      subst ht
      exact Program.obeys_ask.2 ⟨⟨rfl, rfl, fun _ => rfl⟩, fun _ => rfl⟩
    | .ok none =>
      subst ht
      refine commitAs_obeys rfl (fun hgives => ?_) .skipped
      cases hgives.1
    | .ok (some record) =>
      subst ht
      refine (process_obeys ?_).bind fun _ t ⟨hpicked, hopen⟩ => ?_
      · exact ⟨rfl, rfl, rfl, rfl, rfl, rfl, fun h => absurd rfl h⟩
      · -- what was spoilt by the result is committed all the same
        refine commitAs_obeys hopen (fun hgives => ?_) .processed
        have hnone := hgives.2 rfl
        rw [hpicked] at hnone
        cases hnone

end Iteration

/-- An iteration leaves no transaction open, and holds the task that it has handed off. -/
theorem iteration_obeys (transformer : Transformer π) (shard : ShardId) (mode : ProcessingMode) :
    (iteration transformer shard mode).Obeys (discipline transformer shard mode) (fun _ t =>
      t.isOpen = false ∧
        (mode = .useExternalExecutor → t.handedOff = [] ∨
          ∃ record, t.handedOff = [record] ∧ t.Holds mode record)) {} := by
  match mode with
  | .separateTransactions =>
    have hmode : ProcessingMode.separateTransactions ≠ .wrapInTransaction := by decide
    refine pickThen_obeys hmode (fun _ t hopen _ => ⟨hopen, fun h => nomatch h⟩)
      fun record t h _ => ?_
    exact (processDetached_obeys hmode h).mono fun _ _ h => ⟨h.2, fun h => nomatch h⟩
  | .wrapInTransaction => exact wrapped_obeys.mono fun _ _ h => ⟨h, fun h => nomatch h⟩
  | .useExternalExecutor =>
    have hmode : ProcessingMode.useExternalExecutor ≠ .wrapInTransaction := by decide
    refine pickThen_obeys hmode (fun _ t hopen hjobs => ⟨hopen, fun _ => .inl hjobs⟩)
      fun record t h hjobs => ?_
    have hopen : t.isOpen = false := h.isOpen
    refine Program.obeys_ask.2 ⟨⟨rfl, h.picked, h.secured hmode, hopen, hjobs⟩, fun _ => ?_⟩
    refine ⟨hopen, fun _ => .inr ⟨record, ?_, ?_⟩⟩
    · exact congrArg (· ++ [record]) hjobs
    · exact ⟨h.picked, h.outcome, h.changed, h.spoilt, h.begun, h.isOpen, h.secured⟩

end DurableQueue
