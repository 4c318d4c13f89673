import DurableQueue.Proofs.Works.Watch

/-!
# Putting rows back

Who has picked a row may put it back once, after the delay that the consumer has asked for, or else
after the one that the settings give.

* `Charge` is the task that somebody has at hand, how its consumer has ended and which settings were
  read for it. Who puts a row back or hands its task off has it at hand no longer;
* `Charge.Permits` is the rule, and `charges` the watch over it;
* the ledger of an iteration is enough to see that the rule is kept (`Charge.Covers`), so the
  programs of workers and jobs keep it (`charges_lawful`).
-/

namespace DurableQueue

/-- A sequence is interpreted one program after the other. -/
theorem Program.interpret_bind {S T : Signature} {α β : Type}
    (inner : (r : S.Request) → Program T (S.Answer r)) (p : Program S α) (f : α → Program S β) :
    (p.bind f).interpret inner = (p.interpret inner).bind fun a => (f a).interpret inner := by
  induction p with
  | done => rfl
  | ask r next ih => simp [interpret, bind_assoc, ih]

/-- The delay that the ledger notes is the one by the settings that were read. -/
theorem Ledger.planned_notePlan {l : Ledger} {record : TaskRecord} (h : l.picked = some record)
    (settings : ReenqueueSettings) :
    (l.notePlan settings).planned = some (Iteration.plannedDelay settings record) := by
  rw [notePlan, h, Option.map_some]
  cases Iteration.plannedDelay settings record <;> rfl

namespace Works

open Program Iteration

variable {π : Type}

/-- The task that somebody has at hand, how the consumer has ended, and the settings that were read
for it. -/
structure Charge where
  held : Option (Place × TaskRecord) := none
  outcome : Option ConsumerOutcome := none
  settings : Option (Place × ReenqueueSettings) := none

namespace Charge

/-- Note an answer. A pick begins anew, whatever it returns. -/
def note (u : Charge) : (d : Deed π) → d.Answer → Charge
  | .task place (.store (.pick _)), .ok (some record) => { held := some (place, record) }
  | .task _ (.store (.pick _)), _ => {}
  | .task _ (.store (.reenqueue _ _)), _ => { u with held := none }
  | .task _ (.consume _), outcome => { u with outcome := some outcome }
  | .task place .reenqueueSettings, settings => { u with settings := some (place, settings) }
  | .task _ (.handOff _), _ => { u with held := none }
  | _, _ => u

/-- The delay of a task that is put back: the one that the consumer has asked for, or the one by the
settings that were read. -/
def PutBackAfter (u : Charge) (place : Place) (record : TaskRecord) (delay : Delay) : Prop :=
  u.outcome = some (.result (.reenqueue (some delay))) ∨
    u.outcome = some (.result (.reenqueue none)) ∧
      ∃ settings, u.settings = some (place, settings) ∧ plannedDelay settings record = .ok delay

/-- What may be done: only a task at hand is put back or handed off. -/
def Permits (u : Charge) : Deed π → Prop
  | .task place (.store (.reenqueue id delay)) =>
    ∃ record, u.held = some (place, record) ∧ id = record.id ∧ u.PutBackAfter place record delay
  | .task place (.handOff record) => u.held = some (place, record)
  | .offer _ (.reenqueue _ _) => False
  | _ => True

/-- The ledger of an iteration at a place says no more than the charge, as long as nothing was
handed off. -/
structure Covers (place : Place) (l : Ledger) (u : Charge) : Prop where
  held : ∀ record, l.picked = some record → l.changed = false → u.held = some (place, record)
  outcome : ∀ outcome, l.outcome = some outcome → u.outcome = some outcome
  planned : ∀ record delay, l.picked = some record → l.planned = some (.ok delay) →
    ∃ settings, u.settings = some (place, settings) ∧ plannedDelay settings record = .ok delay
  /-- Settings are read only after the consumer has ended. -/
  early : l.outcome = none → l.planned = none

end Charge

/-- The watch over tasks at hand. -/
def charges : Watch π Charge where
  Permits := Charge.Permits
  note := Charge.note
  job place record := { held := some (place, record) }

namespace Charge.Covers

variable {place : Place} {transformer : Transformer π} {mode : ProcessingMode} {u : Charge}
  {l : Ledger}

/-- Before anything is picked there is nothing to know. -/
theorem of_idle (hpicked : l.picked = none) (houtcome : l.outcome = none)
    (hplanned : l.planned = none) (u : Charge) : Covers place l u := by
  refine ⟨fun _ heq => ?_, fun _ heq => ?_, fun _ _ heq => ?_, fun _ => hplanned⟩
  · cases hpicked.symm.trans heq
  · cases houtcome.symm.trans heq
  · cases hpicked.symm.trans heq

/-- What the ledger permits is permitted by a charge that covers it. -/
theorem permits (h : Covers place l u) (hmode : mode ≠ .useExternalExecutor) {r : TaskCall π}
    (hr : l.Permits transformer place.shard mode r) : u.Permits (.task place r) := by
  cases r with
  | store call =>
    cases call with
    | reenqueue id delay =>
      obtain ⟨-, hchanged, hdelay, record, hpicked, rfl⟩ := hr
      refine ⟨record, h.held record hpicked hchanged, rfl, ?_⟩
      rcases hdelay with hasked | ⟨hasked, hplanned⟩
      · exact .inl (h.outcome _ hasked)
      · exact .inr ⟨h.outcome _ hasked, h.planned record delay hpicked hplanned⟩
    | _ => trivial
  | handOff record => exact absurd hr.1 hmode
  | _ => trivial

/-- Neither side has noted anything that matters. -/
theorem congr (h : Covers place l u) {l' : Ledger} (hpicked : l'.picked = l.picked)
    (hchanged : l'.changed = l.changed) (houtcome : l'.outcome = l.outcome)
    (hplanned : l'.planned = l.planned) : Covers place l' u := by
  refine ⟨?_, ?_, ?_, ?_⟩
  · rw [hpicked, hchanged]
    exact h.held
  · rw [houtcome]
    exact h.outcome
  · rw [hpicked, hplanned]
    exact h.planned
  · rw [houtcome, hplanned]
    exact h.early

/-- The row was changed, or was to be. -/
theorem changed (h : Covers place l u) {l' : Ledger} {u' : Charge} (hpicked : l'.picked = l.picked)
    (hchanged : l'.changed = true) (houtcome : l'.outcome = l.outcome)
    (hplanned : l'.planned = l.planned) (houtcome' : u'.outcome = u.outcome)
    (hsettings : u'.settings = u.settings) : Covers place l' u' := by
  refine ⟨fun _ _ hkept => ?_, ?_, ?_, ?_⟩
  · rw [hchanged] at hkept
    cases hkept
  · rw [houtcome, houtcome']
    exact h.outcome
  · rw [hpicked, hplanned, hsettings]
    exact h.planned
  · rw [houtcome, hplanned]
    exact h.early

/-- A charge goes on to cover a ledger. -/
theorem note (h : Covers place l u) (hmode : mode ≠ .useExternalExecutor) {r : TaskCall π}
    (hr : l.Permits transformer place.shard mode r) (a : r.Answer) :
    Covers place (l.note r a) (u.note (.task place r) a) := by
  cases r with
  | store call =>
    cases call with
    | pick failure =>
      -- a pick comes first, and only once
      obtain ⟨-, hpicked, houtcome⟩ := hr
      have hplanned := h.early houtcome
      match a with
      | .ok (some record) =>
        refine ⟨fun _ heq _ => ?_, fun _ heq => ?_, fun _ _ _ heq => ?_, h.early⟩
        · cases heq
          rfl
        · cases houtcome.symm.trans heq
        · cases hplanned.symm.trans heq
      | .ok none => exact of_idle (l := { l with picked := none }) rfl houtcome hplanned _
      | .error e => exact of_idle (l := { l with spoilt := true }) hpicked houtcome hplanned _
    | reenqueue id delay => cases a <;> exact h.changed rfl rfl rfl rfl rfl rfl
    | delete id => cases a <;> exact h.changed rfl rfl rfl rfl rfl rfl
    | begin => cases a <;> exact h.congr rfl rfl rfl rfl
    | commit => cases a <;> exact h.congr rfl rfl rfl rfl
    | enqueue task => exact h
    | release => exact h.congr rfl rfl rfl rfl
  | consume task =>
    refine ⟨h.held, fun outcome heq => heq, h.planned, fun heq => ?_⟩
    cases heq
  | reenqueueSettings =>
    obtain ⟨-, houtcome⟩ := hr
    have hread : (u.note (.task place .reenqueueSettings : Deed π) a).settings = some (place, a) :=
      rfl
    refine ⟨?_, ?_, fun record delay hpicked hplanned => ⟨a, hread, ?_⟩, fun heq => ?_⟩
    · show ∀ record, (l.notePlan a).picked = some record → (l.notePlan a).changed = false → _
      rw [Ledger.picked_notePlan, Ledger.changed_notePlan]
      exact h.held
    · show ∀ outcome, (l.notePlan a).outcome = some outcome → _
      rw [Ledger.outcome_notePlan]
      exact h.outcome
    · -- the ledger has computed the delay from these settings
      have hpicked : l.picked = some record := (Ledger.picked_notePlan a).symm.trans hpicked
      have hplanned : (l.notePlan a).planned = some (.ok delay) := hplanned
      exact (Ledger.planned_notePlan hpicked a).symm.trans hplanned |> Option.some.inj
    · have heq : (l.notePlan a).outcome = none := heq
      rw [Ledger.outcome_notePlan, houtcome] at heq
      cases heq
  | handOff record => exact absurd hr.1 hmode
  | clock => exact h
  | failureSettings => exact h
  | notify record event => exact h

end Charge.Covers

open Charge

section

variable {place : Place} {transformer : Transformer π} {mode : ProcessingMode} {u : Charge}
  {l : Ledger}

/-- A program of an iteration keeps the rule at a place. -/
theorem onTask_keeps {α : Type} {p : TaskProgram π α} {post : α → Ledger → Prop}
    (hmode : mode ≠ .useExternalExecutor)
    (hp : p.Obeys (discipline transformer place.shard mode) post l) (h : Covers place l u) :
    (p.interpret (onTask place)).Obeys charges.monitor
      (fun a u' => ∃ l', post a l' ∧ Covers place l' u') u := by
  refine hp.interpret (n := charges.monitor) ?_ h
  exact fun _ _ _ h hr => obeys_ask.2 ⟨h.permits hmode hr, fun a => h.note hmode hr a⟩

/-- An iteration keeps the rule, whatever was at hand before. -/
theorem iterationAt_keeps (place : Place) (transformer : Transformer π) (mode : ProcessingMode)
    (u : Charge) :
    (iterationAt place transformer mode).Obeys charges.monitor (fun _ _ => True) u := by
  have hcovers : Covers place {} u := .of_idle rfl rfl rfl u
  match mode with
  | .separateTransactions =>
    refine (onTask_keeps ?_ (iteration_obeys transformer place.shard .separateTransactions)
      hcovers).mono fun _ _ _ => trivial
    decide
  | .wrapInTransaction =>
    refine (onTask_keeps ?_ (iteration_obeys transformer place.shard .wrapInTransaction)
      hcovers).mono fun _ _ _ => trivial
    decide
  | .useExternalExecutor =>
    -- the pick is that of separate transactions, and what it returns is handed off
    have hpick : pickCommitted.Obeys
        (discipline transformer place.shard .separateTransactions) _ {} :=
      pickCommitted_obeys (by decide)
    show ((pickCommitted.bind _).interpret (onTask place)).Obeys charges.monitor _ u
    rw [interpret_bind]
    refine (onTask_keeps (by decide) hpick hcovers).bind fun a u' ⟨l, ⟨_, _, hholds⟩, hcovers⟩ => ?_
    match a with
    | .error e => trivial
    | .ok none => trivial
    | .ok (some record) =>
      have hheld := hholds record rfl
      exact obeys_ask.2 ⟨hcovers.held record hheld.picked hheld.changed, fun _ => trivial⟩

end

theorem charges_lawful : (charges : Watch π Charge).Lawful where
  round place transformer mode u := by
    refine obeys_interpret (fun r u _ => ?_) trivial
    cases r with
    | runQueue => exact iterationAt_keeps place transformer mode u
    | _ => exact obeys_ask.2 ⟨trivial, fun _ => trivial⟩
  job place transformer record := by
    have hholds : Ledger.Holds .separateTransactions record
        { begun := 1, picked := some record, secured := true } :=
      ⟨rfl, rfl, rfl, rfl, rfl, rfl, fun _ => rfl⟩
    have hcovers : Covers place { begun := 1, picked := some record, secured := true }
        { held := some (place, record) } := by
      refine ⟨fun _ hpicked _ => ?_, fun _ heq => ?_, fun _ _ _ heq => ?_, fun _ => rfl⟩
      · cases hpicked
        rfl
      · cases heq
      · cases heq
    have hjob : (processDetached transformer place.shard record).Obeys
        (discipline transformer place.shard .separateTransactions) _ _ :=
      processDetached_obeys (by decide) hholds
    exact (onTask_keeps (by decide) hjob hcovers).mono fun _ _ _ => trivial
  producer location transformer route order u := by
    have hproduce := produce_inserts transformer route order
    refine (hproduce.interpret (n := charges.monitor) (R := fun _ _ => True) ?_ trivial).bind
      fun _ _ _ => trivial
    intro _ u ⟨shard, call⟩ _ hr
    refine obeys_ask.2 ⟨?_, fun _ => trivial⟩
    cases call with
    | reenqueue id delay => exact False.elim hr
    | _ => trivial

end Works

end DurableQueue
