import DurableQueue.Proofs.Worker.Course

/-!
# What is told of an iteration

An account keeps what can be read off the answers of an iteration: what was picked, how the consumer
has ended, what was done to the row of the task, and what has failed on which side of the border
around the task.

* `Handling` is the part about the row, and `Handling.Applies` says that a result was applied: the
  calls that it demands were answered, and committed outside of a transaction that wraps the whole
  iteration;
* `Account`, and `Account.note` for an answer. A call of the store is `inside` the border once the
  task is secured, unless it ends a transaction that wraps the whole iteration;
* `Account.Tells` lists the courses of events that listeners may be told, each with what it says
  about the account;
* `Account.result` is how an iteration ends: only a failure outside of the border is an error;
* `iteration_is_reported` is the main statement. Each function of an iteration has one lemma
  `…_accounts`, which says how it moves the account on.
-/

namespace DurableQueue

open Iteration

variable {π : Type}

/-- The error that a call of a store has answered. -/
def StoreCall.error? : (c : StoreCall) → c.Answer → Option StoreError
  | .begin, .error e => some e
  | .pick _, .error e => some e
  | .enqueue _, .error e => some e
  | .delete _, .error e => some e
  | .reenqueue _ _, .error e => some e
  | .commit, .error e => some e
  | _, _ => none

/-- What the answers of an iteration say about the row of its task. -/
structure Handling where
  /-- The delay of a task that is put back without one, by the settings that were read. -/
  planned : Option Delay := none
  /-- The calls that have changed the row, one after the other. -/
  changes : List StoreCall := []
  /-- The changes that were committed. -/
  kept : List StoreCall := []
  /-- What has failed inside of the border, when the result was applied. -/
  fault : Option ProcessingError := none

namespace Handling

/-- The changes that a result demands. A task that is put back without a delay demands none before
its delay is planned. -/
def demands (h : Handling) (record : TaskRecord) : TaskResult → Option (List StoreCall)
  | .finish => some [.delete record.id]
  | .reenqueue (some delay) => some [.reenqueue record.id delay]
  | .reenqueue none => h.planned.map fun delay => [.reenqueue record.id delay]
  | .fail => some []

/-- A result was applied: what it demands was done, and nothing else, and it is kept unless it is to
be committed together with the pick. -/
structure Applies (h : Handling) (mode : ProcessingMode) (record : TaskRecord)
    (result : TaskResult) : Prop where
  fault : h.fault = none
  changes : h.demands record result = some h.changes
  kept : mode ≠ .wrapInTransaction → h.kept = h.changes

end Handling

/-- What the answers of an iteration say about it. -/
structure Account where
  picked : Option TaskRecord := none
  /-- The picked task may be processed: its pick was committed, or is to be committed together with
  the result. -/
  secured : Bool := false
  /-- How the consumer has ended. -/
  outcome : Option ConsumerOutcome := none
  handling : Handling := {}
  /-- The call of the store that has failed outside of the border. -/
  failure : Option (StoreCall × StoreError) := none
  handedOff : List TaskRecord := []
  told : List (TaskRecord × TaskEvent) := []

namespace Account

/-- The events that were told. -/
def events (a : Account) : List TaskEvent := a.told.map (·.2)

/-- Note that an event was told. -/
def tell (a : Account) (record : TaskRecord) (event : TaskEvent) : Account :=
  { a with told := a.told ++ [(record, event)] }

@[simp] theorem events_tell (a : Account) (record : TaskRecord) (event : TaskEvent) :
    (a.tell record event).events = a.events ++ [event] := by
  simp [events, Account.tell]

/-- Note that something has failed inside of the border. -/
def fail (a : Account) (e : ProcessingError) : Account :=
  { a with handling := { a.handling with fault := some e } }

/-- Note that the row was changed. -/
def change (a : Account) (c : StoreCall) : Account :=
  { a with handling := { a.handling with changes := a.handling.changes ++ [c] } }

/-- Note that a transaction was committed. -/
def keep (a : Account) : Account :=
  { a with secured := true, handling := { a.handling with kept := a.handling.changes } }

/-- A call belongs to the processing of the task. -/
def inside (mode : ProcessingMode) (a : Account) (c : StoreCall) : Bool :=
  a.secured && !(mode = .wrapInTransaction && c = .commit)

/-- Note the answer to a call of the store. -/
def noteStore (mode : ProcessingMode) (a : Account) (c : StoreCall) (answer : c.Answer) : Account :=
  match c.error? answer with
  | some e => if a.inside mode c then a.fail (.store e) else { a with failure := some (c, e) }
  | none =>
    match c, answer with
    | .pick _, .ok picked => { a with picked, secured := decide (mode = .wrapInTransaction) }
    | .delete id, _ => a.change (.delete id)
    | .reenqueue id delay, _ => a.change (.reenqueue id delay)
    | .commit, _ => a.keep
    | _, _ => a

/-- Note the settings that were read for a task to be put back: they may be invalid, or give no
delay. -/
def notePlan (a : Account) (settings : ReenqueueSettings) : Account :=
  match a.picked, Strategy.ofSettings settings with
  | none, _ => a
  | some _, .error e => a.fail (.settings e)
  | some record, .ok strategy =>
    match strategy.delay record.reenqueueAttempts with
    | .error e => a.fail (.retry e)
    | .ok delay => { a with handling := { a.handling with planned := some delay } }

/-- Note an answer. -/
def note (mode : ProcessingMode) (a : Account) : (c : TaskCall π) → c.Answer → Account
  | .clock, _ => a
  | .failureSettings, _ => a
  | .reenqueueSettings, settings => a.notePlan settings
  | .store c, answer => a.noteStore mode c answer
  | .consume _, outcome => { a with outcome := some outcome }
  | .notify record event, _ => a.tell record event
  | .handOff record, _ => { a with handedOff := a.handedOff ++ [record] }

/-- The account of several exchanges. -/
def of (mode : ProcessingMode) (es : List (Exchange (TaskCalls π))) : Account :=
  es.foldl (fun a e => a.note mode e.request e.answer) {}

/-- The courses of events that may be told, by what has happened. -/
inductive Tells (transformer : Transformer π) (mode : ProcessingMode) (a : Account) :
    List TaskEvent → Prop
  | idle (hpicked : a.picked = none) : Tells transformer mode a []
  /-- The transaction of the pick could not be committed. -/
  | lost {record : TaskRecord} {e : StoreError} (took : Delay) (hpicked : a.picked = some record)
      (hmode : mode ≠ .wrapInTransaction) (hsecured : a.secured = false)
      (hfailure : a.failure = some (.commit, e)) : Tells transformer mode a [.picked took]
  | undecodable {record : TaskRecord} {e : TransformError} (took : Delay)
      (hpicked : a.picked = some record) (hsecured : a.secured = true)
      (hpayload : transformer.toObject record.payload = .error e) (houtcome : a.outcome = none)
      (huntouched : a.handling = {}) :
      Tells transformer mode a [.picked took, .crashed (.payload e), .finished]
  | refused {record : TaskRecord} {e : ConsumerError} (took : Delay)
      (hpicked : a.picked = some record) (hsecured : a.secured = true)
      (houtcome : a.outcome = some (.error e)) (huntouched : a.handling = {}) :
      Tells transformer mode a [.picked took, .started, .crashed (.consumer e), .finished]
  | panicked {record : TaskRecord} {p : Panic} (took : Delay) (hpicked : a.picked = some record)
      (hsecured : a.secured = true) (houtcome : a.outcome = some (.panic p))
      (huntouched : a.handling = {}) :
      Tells transformer mode a [.picked took, .started, .crashed (.panicked p), .finished]
  | applied {record : TaskRecord} {result : TaskResult} (took ran : Delay)
      (hpicked : a.picked = some record) (hsecured : a.secured = true)
      (houtcome : a.outcome = some (.result result))
      (happlied : a.handling.Applies mode record result) :
      Tells transformer mode a [.picked took, .started, .executed result ran, .finished]
  | unapplied {record : TaskRecord} {result : TaskResult} {e : ProcessingError} (took ran : Delay)
      (hpicked : a.picked = some record) (hsecured : a.secured = true)
      (houtcome : a.outcome = some (.result result)) (hfault : a.handling.fault = some e) :
      Tells transformer mode a
        [.picked took, .started, .executed result ran, .crashed e, .finished]

/-- How an iteration ends. -/
def result (a : Account) : RunOutcome :=
  match a.failure with
  | some (_, e) => .error (.store e)
  | none => .ok (if a.picked.isSome then .processed else .skipped)

/-- What is true of an iteration that is over, with the job that it has handed off. -/
structure Reports (transformer : Transformer π) (mode : ProcessingMode) (a : Account)
    (outcome : RunOutcome) : Prop where
  events : a.Tells transformer mode a.events
  /-- Listeners are told of the picked task and of no other. -/
  about : ∀ notice ∈ a.told, a.picked = some notice.1
  ends : outcome = a.result
  /-- Outside of the border only a begin, a pick or a commit can fail. -/
  fails : ∀ c e, a.failure = some (c, e) →
    c = .begin ∨ (∃ settings, c = .pick settings) ∨ c = .commit

/-- A task is held: it is secured, and nothing was done with it. -/
structure Holds (record : TaskRecord) (a : Account) : Prop where
  picked : a.picked = some record
  secured : a.secured = true
  outcome : a.outcome = none
  handling : a.handling = {}
  failure : a.failure = none
  told : ∃ took, a.told = [(record, .picked took)]

/-- A held task is processed, or was. -/
structure Within (record : TaskRecord) (a : Account) : Prop where
  picked : a.picked = some record
  secured : a.secured = true
  failure : a.failure = none
  about : ∀ notice ∈ a.told, notice.1 = record

/-- The events that are still to be told when a result has been applied, or something has failed. -/
def closing : Except ProcessingError Unit → List TaskEvent
  | .ok () => [.finished]
  | .error e => [.crashed e, .finished]

/-- The account after the consumer was started and has ended. -/
def ran (a : Account) (record : TaskRecord) (outcome : ConsumerOutcome) : Account :=
  { a.tell record .started with outcome := some outcome }

/-- Only the row of the task was handled in the meantime, so that a result is applied, or that it
has failed to be. -/
def Handles (mode : ProcessingMode) (record : TaskRecord) (result : TaskResult) (a : Account)
    (answer : Except ProcessingError Unit) (t : Account) : Prop :=
  ∃ handling, t = { a with handling } ∧
    match answer with
    | .ok () => handling.Applies mode record result
    | .error e => handling.fault = some e

variable {transformer : Transformer π} {mode : ProcessingMode} {record : TaskRecord} {a : Account}

/-- Nothing is told of an iteration that has picked no task. -/
theorem reports_idle (hpicked : a.picked = none) (htold : a.told = []) {outcome : RunOutcome}
    (hends : outcome = a.result)
    (hfails : ∀ c e, a.failure = some (c, e) →
      c = .begin ∨ (∃ settings, c = .pick settings) ∨ c = .commit) :
    a.Reports transformer mode outcome := by
  refine ⟨?_, ?_, hends, hfails⟩
  · rw [events, htold]
    exact .idle hpicked
  · rw [htold]
    exact fun _ h => nomatch h

theorem Holds.within (h : a.Holds record) : a.Within record := by
  obtain ⟨took, htold⟩ := h.told
  refine ⟨h.picked, h.secured, h.failure, fun notice hnotice => ?_⟩
  rw [htold, List.mem_singleton] at hnotice
  rw [hnotice]

theorem Within.tell (h : a.Within record) (event : TaskEvent) :
    (a.tell record event).Within record := by
  refine ⟨h.picked, h.secured, h.failure, fun notice hnotice => ?_⟩
  rcases List.mem_append.1 hnotice with hnotice | hnotice
  · exact h.about notice hnotice
  · rw [List.mem_singleton.1 hnotice]

theorem Holds.exists_events (h : a.Holds record) : ∃ took, a.events = [.picked took] := by
  obtain ⟨took, htold⟩ := h.told
  exact ⟨took, by rw [events, htold]; rfl⟩

theorem Holds.ran (h : a.Holds record) (outcome : ConsumerOutcome) :
    (a.ran record outcome).Within record :=
  ⟨h.picked, h.secured, h.failure, (h.within.tell .started).about⟩

@[simp] theorem events_ran (outcome : ConsumerOutcome) :
    (a.ran record outcome).events = a.events ++ [.started] :=
  events_tell a record .started

theorem Within.handle (h : a.Within record) (handling : Handling) :
    { a with handling }.Within record :=
  ⟨h.picked, h.secured, h.failure, h.about⟩

/-- A processed task is all that there is to report of an iteration that has not failed. -/
theorem Within.reports (h : a.Within record) (hevents : a.Tells transformer mode a.events) :
    a.Reports transformer mode (.ok .processed) := by
  refine ⟨hevents, fun notice hnotice => ?_, ?_, fun c e hfailure => ?_⟩
  · rw [h.about notice hnotice]
    exact h.picked
  · simp [Account.result, h.failure, h.picked]
  · rw [h.failure] at hfailure
    cases hfailure

/-- What may be told depends on the facts about a task, and on those about the transactions of the
iteration only while the task is not secured. -/
theorem Tells.congr {b : Account} {events : List TaskEvent} (h : a.Tells transformer mode events)
    (hpicked : b.picked = a.picked) (hsecured : b.secured = a.secured)
    (houtcome : b.outcome = a.outcome) (huntouched : a.handling = {} → b.handling = {})
    (happlied : ∀ record result, a.handling.Applies mode record result →
      b.handling.Applies mode record result)
    (hfault : b.handling.fault = a.handling.fault)
    (hfailure : a.secured = true ∨ b.failure = a.failure) : b.Tells transformer mode events := by
  cases h with
  | idle h => exact .idle (hpicked.trans h)
  | lost took h hmode hunsecured hlost =>
    have hfailure : b.failure = a.failure :=
      hfailure.resolve_left fun hs => nomatch hs.symm.trans hunsecured
    exact .lost took (hpicked.trans h) hmode (hsecured.trans hunsecured) (hfailure.trans hlost)
  | undecodable took h hs hpayload ho hu =>
    exact .undecodable took (hpicked.trans h) (hsecured.trans hs) hpayload (houtcome.trans ho)
      (huntouched hu)
  | refused took h hs ho hu =>
    exact .refused took (hpicked.trans h) (hsecured.trans hs) (houtcome.trans ho) (huntouched hu)
  | panicked took h hs ho hu =>
    exact .panicked took (hpicked.trans h) (hsecured.trans hs) (houtcome.trans ho) (huntouched hu)
  | applied took ran h hs ho ha =>
    exact .applied took ran (hpicked.trans h) (hsecured.trans hs) (houtcome.trans ho)
      (happlied _ _ ha)
  | unapplied took ran h hs ho hf =>
    exact .unapplied took ran (hpicked.trans h) (hsecured.trans hs) (houtcome.trans ho)
      (hfault.trans hf)

theorem Tells.tell {events : List TaskEvent} (h : a.Tells transformer mode events)
    (record : TaskRecord) (event : TaskEvent) :
    (a.tell record event).Tells transformer mode events :=
  h.congr rfl rfl rfl id (fun _ _ => id) rfl (.inr rfl)

/-- A failure outside of the border of a secured task changes nothing of what may be told. -/
theorem Tells.failing {events : List TaskEvent} (h : a.Tells transformer mode events)
    (hsecured : a.secured = true) (failure : Option (StoreCall × StoreError)) :
    { a with failure }.Tells transformer mode events :=
  h.congr rfl rfl rfl id (fun _ _ => id) rfl (.inl hsecured)

/-- What was applied in the transaction of the pick is still applied once it was committed. -/
theorem Tells.keep {events : List TaskEvent} (h : a.Tells transformer .wrapInTransaction events)
    (hsecured : a.secured = true) : a.keep.Tells transformer .wrapInTransaction events := by
  refine h.congr rfl hsecured.symm rfl (fun hu => ?_) (fun record result ha => ?_) rfl (.inr rfl)
  · simp [Account.keep, hu]
  · exact ⟨ha.fault, ha.changes, fun hmode => absurd rfl hmode⟩

end Account

open Account

/-- The monitor that keeps the account; it rules nothing out. -/
def accounting (π : Type) (mode : ProcessingMode) : Monitor (TaskCalls π) Account :=
  ⟨fun _ _ => True, note mode⟩

namespace Iteration

variable {transformer : Transformer π} {shard : ShardId} {mode : ProcessingMode} {a : Account}
  {record : TaskRecord} {result : TaskResult}

/-! ### Picking -/

theorem pickTask_accounts : pickTask.Obeys (accounting π mode) (fun answer t =>
    match answer with
    | .error e => ∃ settings, t = { failure := some (.pick settings, e) }
    | .ok none => t = { secured := decide (mode = .wrapInTransaction) }
    | .ok (some record) => ∃ took, t = {
        picked := some record
        secured := decide (mode = .wrapInTransaction)
        told := [(record, .picked took)] }) {} := by
  refine Program.obeys_ask.2 ⟨trivial, fun started => ?_⟩
  refine Program.obeys_ask.2 ⟨trivial, fun failure => ?_⟩
  refine Program.obeys_ask.2 ⟨trivial, fun answer => ?_⟩
  match answer with
  | .error e => exact ⟨failure, rfl⟩
  | .ok none => rfl
  | .ok (some record) =>
    refine Program.obeys_ask.2 ⟨trivial, fun ended => ?_⟩
    exact Program.obeys_ask.2 ⟨trivial, fun _ => ⟨_, rfl⟩⟩

/-- A pick of its own holds what it returns, or is all that there is to report. -/
theorem pickCommitted_accounts (transformer : Transformer π) (hmode : mode ≠ .wrapInTransaction) :
    pickCommitted.Obeys (accounting π mode) (fun answer t => t.handedOff = [] ∧
      match answer with
      | .error e => t.Reports transformer mode (.error (.store e))
      | .ok none => t.Reports transformer mode (.ok .skipped)
      | .ok (some record) => t.Holds record) {} := by
  have hunsecured : decide (mode = .wrapInTransaction) = false := decide_eq_false hmode
  refine Program.obeys_ask.2 ⟨trivial, fun answer => ?_⟩
  match answer with
  | .error e => exact ⟨rfl, reports_idle rfl rfl rfl fun _ _ h => by cases h; exact .inl rfl⟩
  | .ok () =>
    refine pickTask_accounts.bind fun answer t ht => ?_
    match answer with
    | .error e =>
      obtain ⟨settings, rfl⟩ := ht
      refine Program.obeys_ask.2 ⟨trivial, fun _ => ⟨rfl, reports_idle rfl rfl rfl fun _ _ h => ?_⟩⟩
      cases h
      exact .inr (.inl ⟨settings, rfl⟩)
    | .ok none =>
      subst ht
      rw [hunsecured]
      refine Program.obeys_ask.2 ⟨trivial, fun answer => ?_⟩
      match answer with
      | .error e =>
        refine ⟨rfl, reports_idle rfl rfl rfl fun _ _ h => ?_⟩
        cases h
        exact .inr (.inr rfl)
      | .ok () => exact ⟨rfl, reports_idle rfl rfl rfl fun _ _ h => nomatch h⟩
    | .ok (some record) =>
      obtain ⟨took, rfl⟩ := ht
      rw [hunsecured]
      refine Program.obeys_ask.2 ⟨trivial, fun answer => ?_⟩
      match answer with
      | .error e =>
        -- the row was claimed, but the claim is lost
        refine ⟨rfl, .lost took rfl hmode rfl rfl, fun notice hnotice => ?_, rfl, fun _ _ h => ?_⟩
        · rw [List.mem_singleton.1 hnotice]
          rfl
        · cases h
          exact .inr (.inr rfl)
      | .ok () => exact ⟨rfl, rfl, rfl, rfl, rfl, rfl, took, rfl⟩

/-! ### Processing -/

theorem execute_accounts (h : a.Holds record) :
    (execute transformer shard record).Obeys (accounting π mode) (fun answer t =>
      t.Within record ∧ t.handedOff = a.handedOff ∧
      match answer with
      | .error e => t.Tells transformer mode (t.events ++ closing (.error e))
      | .ok result => t.outcome = some (.result result) ∧ t.handling = {} ∧
        ∃ took ran, t.events = [.picked took, .started, .executed result ran]) a := by
  obtain ⟨took, hevents⟩ := h.exists_events
  unfold execute
  cases hpayload : transformer.toObject record.payload with
  | error e =>
    refine ⟨h.within, rfl, ?_⟩
    rw [hevents]
    exact .undecodable took h.picked h.secured hpayload h.outcome h.handling
  | ok payload =>
    refine Program.obeys_ask.2 ⟨trivial, fun _ => ?_⟩
    refine Program.obeys_ask.2 ⟨trivial, fun started => ?_⟩
    refine Program.obeys_ask.2 ⟨trivial, fun outcome => ?_⟩
    have hwithin : (a.ran record outcome).Within record := h.ran outcome
    have hran : (a.ran record outcome).events = [.picked took, .started] := by
      rw [events_ran, hevents]
      rfl
    match outcome with
    | .error e =>
      refine ⟨hwithin, rfl, ?_⟩
      show Tells transformer mode _ ((a.ran record (.error e)).events ++ _)
      rw [hran]
      exact .refused took h.picked h.secured rfl h.handling
    | .panic p =>
      refine ⟨hwithin, rfl, ?_⟩
      show Tells transformer mode _ ((a.ran record (.panic p)).events ++ _)
      rw [hran]
      exact .panicked took h.picked h.secured rfl h.handling
    | .result result =>
      refine Program.obeys_ask.2 ⟨trivial, fun ended => ?_⟩
      refine Program.obeys_ask.2
        ⟨trivial, fun _ => ⟨hwithin.tell _, rfl, rfl, h.handling, took, ?_⟩⟩
      refine ⟨.clamp (ended - started), ?_⟩
      exact (events_tell (a.ran record _) record _).trans (by rw [hran]; rfl)

/-- The account and the iteration find the same delay, or the same reason why there is none. -/
theorem notePlan_of_picked (hpicked : a.picked = some record) (settings : ReenqueueSettings) :
    a.notePlan settings = match plannedDelay settings record with
      | .error e => a.fail e
      | .ok delay => { a with handling := { a.handling with planned := some delay } } := by
  unfold notePlan plannedDelay
  cases Strategy.ofSettings settings with
  | error e => simp [hpicked]
  | ok strategy =>
    cases hdelay : strategy.delay record.reenqueueAttempts with
    | error e => simp [hpicked, hdelay]
    | ok delay => simp [hpicked, hdelay]

theorem handles_fail (e : ProcessingError) : Handles mode record result a (.error e) (a.fail e) :=
  ⟨_, rfl, rfl⟩

/-- A row on which nothing was done yet is changed as its result demands. -/
theorem handles_change {c : StoreCall} {planned : Option Delay} (hrow : a.handling = { planned })
    (hdemands : a.handling.demands record result = some [c]) :
    Handles .wrapInTransaction record result a (.ok ()) (a.change c) := by
  refine ⟨_, rfl, ?_, ?_, fun hmode => absurd rfl hmode⟩
  · rw [hrow]
  · have hchanges : a.handling.changes = [] := by rw [hrow]
    rw [hchanges]
    exact hdemands

/-- Putting the row back applies the result, or fails within the border of the task. -/
theorem putBack_accounts {delay : Delay} {planned : Option Delay} (hsecured : a.secured = true)
    (hrow : a.handling = { planned })
    (hdemands : a.handling.demands record result = some [.reenqueue record.id delay]) :
    ((store (.reenqueue record.id delay)).bind fun answer => .done (ofChange answer)).Obeys
      (accounting π mode) (Handles .wrapInTransaction record result a) a := by
  refine Program.obeys_ask.2 ⟨trivial, fun answer => ?_⟩
  show Handles _ record result a _ (a.noteStore mode (.reenqueue record.id delay) answer)
  match answer with
  | .ok _ => exact handles_change hrow hdemands
  | .error e =>
    have hnote : a.noteStore mode (.reenqueue record.id delay) (.error e) = a.fail (.store e) := by
      simp [noteStore, StoreCall.error?, inside, hsecured]
    rw [hnote]
    exact handles_fail (.store e)

/-- In an open transaction a result is applied as if it were to be committed later. -/
theorem applyResult_accounts (hpicked : a.picked = some record) (hsecured : a.secured = true)
    (huntouched : a.handling = {}) :
    (applyResult record result).Obeys (accounting π mode)
      (Handles .wrapInTransaction record result a) a := by
  match result with
  | .fail => exact ⟨a.handling, rfl, by rw [huntouched], by rw [huntouched]; rfl, absurd rfl⟩
  | .finish =>
    refine Program.obeys_ask.2 ⟨trivial, fun answer => ?_⟩
    show Handles _ record .finish a _ (a.noteStore mode (.delete record.id) answer)
    match answer with
    | .ok _ => exact handles_change huntouched rfl
    | .error e =>
      have hnote : a.noteStore mode (.delete record.id) (.error e) = a.fail (.store e) := by
        simp [noteStore, StoreCall.error?, inside, hsecured]
      rw [hnote]
      exact handles_fail (.store e)
  | .reenqueue (some delay) => exact putBack_accounts hsecured huntouched rfl
  | .reenqueue none =>
    refine Program.obeys_ask.2 ⟨trivial, fun settings => ?_⟩
    rw [Program.done_bind]
    show Program.Obeys _ _ _ (a.notePlan settings)
    rw [notePlan_of_picked hpicked]
    cases plannedDelay settings record with
    | error e => exact handles_fail e
    | ok delay =>
      -- only the plan was noted so far, so that what is handled next is handled from `a` on
      rw [huntouched]
      exact putBack_accounts hsecured rfl rfl

/-- With a transaction of its own, every call for a result lies within the border of the task. -/
theorem applyDetached_accounts (hmode : mode ≠ .wrapInTransaction)
    (hpicked : a.picked = some record) (hsecured : a.secured = true)
    (huntouched : a.handling = {}) :
    (applyDetached record result).Obeys (accounting π mode) (Handles mode record result a) a := by
  have hfails (t : Account) (c : StoreCall) (answer : c.Answer) (e : StoreError)
      (ht : t.secured = true) (he : c.error? answer = some e) :
      t.noteStore mode c answer = t.fail (.store e) := by
    simp [noteStore, he, inside, ht, hmode]
  unfold applyDetached
  by_cases hfail : result = .fail
  · rw [if_pos hfail]
    subst hfail
    exact ⟨a.handling, rfl, by rw [huntouched], by rw [huntouched]; rfl, by rw [huntouched]; simp⟩
  · rw [if_neg hfail]
    refine Program.obeys_ask.2 ⟨trivial, fun answer => ?_⟩
    match answer with
    | .error e =>
      show Handles mode record result a _ (a.noteStore mode .begin (.error e))
      rw [hfails a .begin (.error e) e hsecured rfl]
      exact handles_fail (.store e)
    | .ok () =>
      refine (applyResult_accounts hpicked hsecured huntouched).bind fun answer t ht => ?_
      obtain ⟨handling, rfl, ht⟩ := ht
      match answer with
      | .error e => exact Program.obeys_ask.2 ⟨trivial, fun _ => ⟨handling, rfl, ht⟩⟩
      | .ok () =>
        refine Program.obeys_ask.2 ⟨trivial, fun answer => ?_⟩
        match answer with
        | .error e =>
          show Handles mode record result a _
            (noteStore mode { a with handling } .commit (.error e))
          rw [hfails { a with handling } .commit (.error e) e hsecured rfl]
          exact ⟨_, rfl, rfl⟩
        | .ok () =>
          refine ⟨{ handling with kept := handling.changes }, ?_, ht.fault, ht.changes,
            fun _ => rfl⟩
          show { a with secured := true, handling := _ } = { a with handling := _ }
          rw [← hsecured]

theorem report_accounts (answer : Except ProcessingError Unit) (h : a.Within record)
    (hevents : a.Tells transformer mode (a.events ++ closing answer)) :
    (report record answer).Obeys (accounting π mode) (fun _ t =>
      t.Within record ∧ t.Tells transformer mode t.events ∧ t.handedOff = a.handedOff) a := by
  match answer with
  | .ok () =>
    refine Program.obeys_ask.2 ⟨trivial, fun _ => ⟨h.tell .finished, ?_, rfl⟩⟩
    show (a.tell record .finished).Tells transformer mode (a.tell record .finished).events
    rw [events_tell]
    exact hevents.tell record .finished
  | .error e =>
    refine Program.obeys_ask.2 ⟨trivial, fun _ => ?_⟩
    refine Program.obeys_ask.2 ⟨trivial, fun _ => ⟨(h.tell (.crashed e)).tell .finished, ?_, rfl⟩⟩
    show ((a.tell record (.crashed e)).tell record .finished).Tells transformer mode
      ((a.tell record (.crashed e)).tell record .finished).events
    rw [events_tell, events_tell, List.append_assoc]
    exact (hevents.tell record (.crashed e)).tell record .finished

/-- What is told of a held task, given that results are applied within its border. -/
theorem processWith_accounts (h : a.Holds record)
    {apply : TaskResult → TaskProgram π (Except ProcessingError Unit)}
    (happly : ∀ result t, t.picked = some record → t.secured = true → t.handling = {} →
      (apply result).Obeys (accounting π mode) (Handles mode record result t) t) :
    (processWith transformer shard record apply).Obeys (accounting π mode) (fun _ t =>
      t.Within record ∧ t.Tells transformer mode t.events ∧ t.handedOff = a.handedOff) a := by
  have hexecute : (execute transformer shard record).Obeys (accounting π mode) _ a :=
    execute_accounts h
  refine hexecute.bind fun answer t ⟨hwithin, hjobs, htells⟩ => ?_
  rw [← hjobs]
  match answer with
  | .error e => exact report_accounts (.error e) hwithin htells
  | .ok result =>
    obtain ⟨houtcome, huntouched, took, ran, hevents⟩ := htells
    refine (happly result t hwithin.picked hwithin.secured huntouched).bind fun answer t' ht' => ?_
    obtain ⟨handling, rfl, ht'⟩ := ht'
    refine report_accounts answer (hwithin.handle handling) ?_
    show Tells transformer mode { t with handling } (t.events ++ _)
    rw [hevents]
    match answer with
    | .ok () => exact .applied took ran hwithin.picked hwithin.secured houtcome ht'
    | .error e => exact .unapplied took ran hwithin.picked hwithin.secured houtcome ht'

/-- What is applied in the transaction of the pick is applied, since it is committed together with
the pick. -/
theorem process_accounts (h : a.Holds record) :
    (process transformer shard record).Obeys (accounting π .wrapInTransaction) (fun _ t =>
      t.Within record ∧ t.Tells transformer .wrapInTransaction t.events ∧
        t.handedOff = a.handedOff) a :=
  processWith_accounts h fun _ _ hpicked hsecured huntouched =>
    applyResult_accounts hpicked hsecured huntouched

theorem processDetached_accounts (hmode : mode ≠ .wrapInTransaction) (h : a.Holds record) :
    (processDetached transformer shard record).Obeys (accounting π mode) (fun _ t =>
      t.Within record ∧ t.Tells transformer mode t.events ∧ t.handedOff = a.handedOff) a :=
  processWith_accounts h fun _ _ hpicked hsecured huntouched =>
    applyDetached_accounts hmode hpicked hsecured huntouched

/-! ### The modes -/

/-- An iteration that picks in a transaction of its own, given how it goes on with what it holds. -/
theorem pickThen_accounts {post : RunOutcome → Account → Prop} (hmode : mode ≠ .wrapInTransaction)
    {go : TaskRecord → TaskProgram π Unit}
    (hnone : ∀ outcome t, t.handedOff = [] → t.Reports transformer mode outcome → post outcome t)
    (hgo : ∀ record t, t.Holds record → t.handedOff = [] →
      (go record).Obeys (accounting π mode) (fun _ => post (.ok .processed)) t) :
    (pickThen go).Obeys (accounting π mode) post {} := by
  refine (pickCommitted_accounts transformer hmode).bind fun answer t ⟨hjobs, ht⟩ => ?_
  match answer with
  | .error e => exact hnone _ t hjobs ht
  | .ok none => exact hnone _ t hjobs ht
  | .ok (some record) => exact (hgo record t ht hjobs).bind fun _ _ h => h

/-- The commit of the transaction that wraps an iteration fails outside of the border of the
task. -/
theorem commitAs_accounts {status : RunStatus}
    (h : a.Reports transformer .wrapInTransaction (.ok status)) (hsecured : a.secured = true) :
    (commitAs status).Obeys (accounting π .wrapInTransaction) (fun outcome t =>
      t.handedOff = a.handedOff ∧ t.Reports transformer .wrapInTransaction outcome) a := by
  refine Program.obeys_ask.2 ⟨trivial, fun answer => ?_⟩
  match answer with
  | .error e =>
    have hnote : a.noteStore .wrapInTransaction .commit (.error e)
        = { a with failure := some (.commit, e) } := by
      simp [noteStore, StoreCall.error?, inside]
    show (a.noteStore .wrapInTransaction .commit (.error e)).handedOff = _ ∧
      (a.noteStore .wrapInTransaction .commit (.error e)).Reports transformer .wrapInTransaction _
    rw [hnote]
    refine ⟨rfl, h.events.failing hsecured _, h.about, rfl, fun c e hfailure => ?_⟩
    cases hfailure
    exact .inr (.inr rfl)
  | .ok () =>
    exact ⟨rfl, h.events.keep hsecured, h.about, h.ends, h.fails⟩

theorem wrapped_accounts :
    (wrapped transformer shard).Obeys (accounting π .wrapInTransaction) (fun outcome t =>
      t.handedOff = [] ∧ t.Reports transformer .wrapInTransaction outcome) {} := by
  refine Program.obeys_ask.2 ⟨trivial, fun answer => ?_⟩
  match answer with
  | .error e => exact ⟨rfl, reports_idle rfl rfl rfl fun _ _ h => by cases h; exact .inl rfl⟩
  | .ok () =>
    refine pickTask_accounts.bind fun answer t ht => ?_
    match answer with
    | .error e =>
      obtain ⟨settings, rfl⟩ := ht
      refine Program.obeys_ask.2 ⟨trivial, fun _ => ⟨rfl, reports_idle rfl rfl rfl fun _ _ h => ?_⟩⟩
      cases h
      exact .inr (.inl ⟨settings, rfl⟩)
    | .ok none =>
      subst ht
      exact commitAs_accounts (reports_idle rfl rfl rfl fun _ _ h => nomatch h) rfl
    | .ok (some record) =>
      obtain ⟨took, rfl⟩ := ht
      have hholds : Account.Holds record
          { picked := some record, secured := true, told := [(record, .picked took)] } :=
        ⟨rfl, rfl, rfl, rfl, rfl, took, rfl⟩
      refine (process_accounts hholds).bind fun _ t ⟨hwithin, htells, hjobs⟩ => ?_
      exact (commitAs_accounts (hwithin.reports htells) hwithin.secured).mono
        fun _ _ h => ⟨h.1.trans hjobs, h.2⟩

/-- An iteration has reported all there is to report, or it has handed off what it holds. -/
theorem iteration_accounts (transformer : Transformer π) (shard : ShardId) (mode : ProcessingMode) :
    (iteration transformer shard mode).Obeys (accounting π mode) (fun outcome t =>
      t.handedOff = [] ∧ t.Reports transformer mode outcome ∨
        mode ≠ .wrapInTransaction ∧ outcome = .ok .processed ∧
          ∃ record, t.handedOff = [record] ∧ t.Holds record) {} := by
  match mode with
  | .separateTransactions =>
    have hmode : ProcessingMode.separateTransactions ≠ .wrapInTransaction := by decide
    refine pickThen_accounts hmode (fun _ t hjobs h => .inl ⟨hjobs, h⟩) fun record t h hjobs => ?_
    refine (processDetached_accounts hmode h).mono fun _ _ ⟨hwithin, htells, hkept⟩ => ?_
    exact .inl ⟨hkept.trans hjobs, hwithin.reports htells⟩
  | .wrapInTransaction => exact wrapped_accounts.mono fun _ _ h => .inl h
  | .useExternalExecutor =>
    have hmode : ProcessingMode.useExternalExecutor ≠ .wrapInTransaction := by decide
    refine pickThen_accounts hmode (fun _ t hjobs h => .inl ⟨hjobs, h⟩) fun record t h hjobs => ?_
    refine Program.obeys_ask.2 ⟨trivial, fun _ => .inr ⟨hmode, rfl, record, ?_, ?_⟩⟩
    · exact congrArg (· ++ [record]) hjobs
    · exact ⟨h.picked, h.secured, h.outcome, h.handling, h.failure, h.told⟩

end Iteration

/-- The exchanges of a whole iteration that ends in some way. -/
def IsCourseTo (transformer : Transformer π) (shard : ShardId) (mode : ProcessingMode)
    (es : List (Exchange (TaskCalls π))) (outcome : RunOutcome) : Prop :=
  ∃ own jobs, es = own ++ jobs ∧ (iteration transformer shard mode).Leads own (.done outcome) ∧
    (workOff transformer shard (handedOff own)).Leads jobs (.done ())

section

variable {transformer : Transformer π} {shard : ShardId} {mode : ProcessingMode} {a : Account}
  {es : List (Exchange (TaskCalls π))} {outcome : RunOutcome}

@[simp] theorem handedOff_noteStore (c : StoreCall) (answer : c.Answer) :
    (a.noteStore mode c answer).handedOff = a.handedOff := by
  unfold noteStore
  split
  · split <;> rfl
  · split <;> rfl

@[simp] theorem handedOff_notePlan (settings : ReenqueueSettings) :
    (a.notePlan settings).handedOff = a.handedOff := by
  unfold notePlan
  split
  · rfl
  · rfl
  · split <;> rfl

theorem handedOff_account (es : List (Exchange (TaskCalls π))) :
    ((accounting π mode).afterAll a es).handedOff = a.handedOff ++ handedOff es := by
  refine Monitor.afterAll_collects Account.handedOff (fun r _ => TaskCall.handedOff r) ?_ a es
  intro a r answer
  cases r <;> simp [accounting, note, Account.tell, TaskCall.handedOff]

/-- **What is told of an iteration.** Whatever the store and the consumer answer, in any mode:
listeners are told one of the courses of events, according to what has happened, and the iteration
ends in an error only for a call of the store outside of the border of the task. -/
theorem iteration_is_reported (h : IsCourseTo transformer shard mode es outcome) :
    (Account.of mode es).Reports transformer mode outcome := by
  obtain ⟨own, jobs, rfl, hown, hjobs⟩ := h
  show ((accounting π mode).afterAll {} (own ++ jobs)).Reports transformer mode outcome
  rw [Monitor.afterAll_append]
  have hdone := ((iteration_accounts transformer shard mode).keeps hown).2
  have hhanded : ((accounting π mode).afterAll {} own).handedOff = handedOff own :=
    handedOff_account own
  obtain ⟨hnone, hreports⟩ | ⟨hmode, rfl, record, hsome, hholds⟩ := hdone
  · rw [← hhanded, hnone] at hjobs
    cases hjobs
    exact hreports
  · rw [← hhanded, hsome] at hjobs
    have hjob : (workOff transformer shard [record]).Obeys (accounting π mode) (fun _ t =>
        t.Within record ∧ t.Tells transformer mode t.events)
        ((accounting π mode).afterAll {} own) :=
      (processDetached_accounts hmode hholds).bind fun _ _ h => ⟨h.1, h.2.1⟩
    obtain ⟨hwithin, htells⟩ := (hjob.keeps hjobs).2
    exact hwithin.reports htells

end

/-- In one transaction a task is picked and to be put back, for which there is no delay. The
transaction cannot be committed either. -/
def unplanned (record : TaskRecord) : List (Exchange (TaskCalls String)) :=
  [⟨.store .begin, .ok ()⟩, ⟨.clock, 0⟩, ⟨.failureSettings, {}⟩,
    ⟨.store (.pick {}), .ok (some record)⟩, ⟨.clock, 5⟩, ⟨.notify record (.picked (.clamp 5)), ()⟩,
    ⟨.notify record .started, ()⟩, ⟨.clock, 7⟩,
    ⟨.consume (.ofRecord "main" record record.payload), .result (.reenqueue none)⟩, ⟨.clock, 9⟩,
    ⟨.notify record (.executed (.reenqueue none) (.clamp 2)), ()⟩,
    ⟨.reenqueueSettings, { retryType := .manual }⟩,
    ⟨.notify record (.crashed (.retry .explicitDelayRequired)), ()⟩, ⟨.notify record .finished, ()⟩,
    ⟨.store .commit, .error (.database "gone")⟩]

theorem unplanned_is_reported :
    IsCourseTo .text "main" .wrapInTransaction (unplanned default)
        (.error (.store (.database "gone"))) ∧
      (Account.of .wrapInTransaction (unplanned default)).events
        = [.picked (.clamp 5), .started, .executed (.reenqueue none) (.clamp 2),
          .crashed (.retry .explicitDelayRequired), .finished] ∧
      (Account.of .wrapInTransaction (unplanned default)).Reports .text .wrapInTransaction
        (.error (.store (.database "gone"))) := by
  have hcourse : IsCourseTo .text "main" .wrapInTransaction (unplanned default)
      (.error (.store (.database "gone"))) := by
    refine ⟨unplanned default, [], rfl, ?_, .refl _⟩
    exact .ask _ <| .ask _ <| .ask _ <| .ask _ <| .ask _ <| .ask _ <| .ask _ <| .ask _ <| .ask _ <|
      .ask _ <| .ask _ <| .ask _ <| .ask _ <| .ask _ <| .ask _ <| .refl _
  exact ⟨hcourse, rfl, iteration_is_reported hcourse⟩

end DurableQueue
