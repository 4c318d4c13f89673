import DurableQueue.Proofs.Worker.Round
import DurableQueue.Proofs.Worker.Waits

/-!
# The pace of a worker

A worker on its rounds never runs its queue again before the pause for the last outcome is over,
except that it may be woken after it has found no task. The pause is chosen once the outcome was
reported, by the settings that are live then.

* `Log.Rested` says that a worker has rested long enough at some moment to run its queue again;
* `Phase.Holds` is what is known in each phase of a round, and `Tour.Sound` of a tour at any time;
* there is one lemma for the moves of others (`Sound.others`) and one for each kind of step of the
  worker, then `Sound.turn` and `Sound.step`.

**Rounds are whole and paced** (`rounds_are_whole_and_paced`). The pause does not go by the settings
that were live when the run of the queue has ended (`settings_change_before_the_pause`).
-/

namespace DurableQueue

/-! ### What a log says -/

/-- What the worker does itself. -/
def Note.isOwn : Note → Bool
  | .woken => false
  | _ => true

/-- Only the end of a run, the choice of a pause and the end of a wait bear on the rest of a
worker. -/
def Note.bearsOnRest : Note → Bool
  | .left .. => true
  | .chose _ => true
  | .waited _ => true
  | _ => false

namespace Log

/-- When and how the last run of the queue has ended. -/
def lastRun? : Log → Option (Nat × RunOutcome)
  | [] => none
  | (time, .left outcome _) :: _ => some (time, outcome)
  | _ :: past => lastRun? past

/-- The settings by which the pause after the last run of the queue was chosen. -/
def lastChoice? : Log → Option PollSettings
  | [] => none
  | (_, .chose settings) :: _ => some settings
  | (_, .left ..) :: _ => none
  | _ :: past => lastChoice? past

/-- The worker was asked to wake up since its last wait has ended, or since it was spawned. -/
def wokenSinceWait : Log → Bool
  | [] => false
  | (_, .woken) :: _ => true
  | (_, .waited _) :: _ => false
  | _ :: past => wokenSinceWait past

/-- The worker was asked to wake up in its last wait, or since the one before it has ended. -/
def wokenForWait : Log → Bool
  | [] => false
  | (_, .waited _) :: past => wokenSinceWait past
  | _ :: past => wokenForWait past

/-- By some moment the worker has rested long enough to run its queue again. -/
def Rested (log : Log) (time : Nat) : Prop :=
  match log.lastRun?, log.lastChoice? with
  | none, _ => True
  | some _, none => False
  | some (ended, .ok .processed), some settings => ended + settings.betweenTasks.nanos ≤ time
  | some (ended, .error _), some settings => ended + settings.fatalCrash.nanos ≤ time
  | some (ended, .ok .skipped), some settings =>
    ended + settings.noTask.nanos ≤ time ∨ log.wokenForWait = true

/-- Whenever the queue was run again, the worker had rested before. -/
def Paced : Log → Prop
  | [] => True
  | (time, .entered) :: past => Rested past time ∧ Paced past
  | _ :: past => Paced past

/-- What the worker has done itself, oldest first. -/
def own (log : Log) : List Note := ((log.map Prod.snd).filter Note.isOwn).reverse

variable {log past : Log} {time later : Nat}

/-- A worker has rested when the pause for the last outcome is over, or when it was woken in a pause
that allows it. -/
theorem rested_of_some {ended : Nat} {outcome : RunOutcome} {settings : PollSettings}
    (hrun : log.lastRun? = some (ended, outcome)) (hchoice : log.lastChoice? = some settings)
    (hrested : ended + (Poller.pause settings outcome).1.nanos ≤ time ∨
      (Poller.pause settings outcome).2 = .allow ∧ log.wokenForWait = true) : log.Rested time := by
  rw [Rested, hrun, hchoice]
  match outcome with
  | .ok .processed => exact hrested.resolve_right fun h => nomatch h.1
  | .error _ => exact hrested.resolve_right fun h => nomatch h.1
  | .ok .skipped => exact hrested.imp_right And.right

theorem Rested.mono (h : log.Rested time) (hlater : time ≤ later) : log.Rested later := by
  unfold Rested at h ⊢
  split at h
  · trivial
  · exact h
  · exact Nat.le_trans h hlater
  · exact Nat.le_trans h hlater
  · exact h.imp_left fun h => Nat.le_trans h hlater

theorem rested_cons {n : Note} (hn : n.bearsOnRest = false) (time : Nat) :
    Rested ((time, n) :: log) later ↔ log.Rested later := by
  cases n with
  | left => cases hn
  | chose => cases hn
  | waited => cases hn
  | _ => rfl

theorem own_cons {n : Note} (hn : n.isOwn = true) (time : Nat) :
    own ((time, n) :: log) = log.own ++ [n] := by
  simp [own, hn]

theorem own_woken (time : Nat) : own ((time, .woken) :: log) = log.own := rfl

end Log

/-! ### What is known on a tour -/

/-- What is known in a phase of a round. -/
def Phase.Holds (t : Tour) : Phase → Prop
  | .announcing => t.log.Rested t.now
  | .timing => t.log.Rested t.now
  | .entering _ => t.log.Rested t.now
  | .inside _ => True
  | .measuring _ outcome _ | .reporting _ outcome _ | .choosing _ outcome _ =>
    ∃ ended ≤ t.now, t.log.lastRun? = some (ended, outcome)
  | .resting _ outcome _ chosen =>
    t.log.lastChoice? = some chosen ∧ ∃ ended ≤ t.now, t.log.lastRun? = some (ended, outcome)
  | .waiting _ outcome _ chosen wait =>
    t.log.lastChoice? = some chosen ∧ wait.policy = (Poller.pause chosen outcome).2 ∧
    ∃ ended, t.log.lastRun? = some (ended, outcome) ∧
      ended + (Poller.pause chosen outcome).1.nanos ≤ wait.deadline
  | .closing _ => t.worker.gate.cancelled = false → t.log.Rested t.now
  | .finished _ => t.worker.gate.cancelled = false → t.log.Rested t.now

namespace Tour

/-- What is known of a tour at any time. -/
structure Known (t : Tour) : Prop where
  /-- A request to wake up that is pending was made since the last wait. -/
  pending : t.worker.gate.wakeRequested = true → t.log.wokenSinceWait = true
  paced : t.log.Paced

/-- A tour is in some phase of a round, after some whole rounds. -/
structure Within (t : Tour) (visits : List Visit) (φ : Phase) : Prop extends Known t where
  stage : t.worker.loop.stage = .busy φ.activity
  holds : φ.Holds t
  rounds : t.worker.loop.rounds = visits.length + 1
  own : t.log.own = visits.flatMap Visit.notes ++ φ.notes

/-- A tour is between two rounds, after some whole rounds. -/
structure Between (t : Tour) (visits : List Visit) : Prop extends Known t where
  idle : ¬ t.worker.loop.Busy
  rested : t.worker.gate.cancelled = false → t.log.Rested t.now
  rounds : t.worker.loop.rounds = visits.length
  own : t.log.own = visits.flatMap Visit.notes

/-- A tour is where it should be. -/
inductive Sound (t : Tour) : Prop
  | within (visits : List Visit) (φ : Phase) (h : t.Within visits φ)
  | between (visits : List Visit) (h : t.Between visits)

/-! ### The moves of others -/

/-- All that the moves of others do to a tour. -/
structure Others (t t' : Tour) : Prop where
  now : t.now ≤ t'.now
  loop : t'.worker.loop = t.worker.loop
  cancelled : t'.worker.gate.cancelled = false → t.worker.gate.cancelled = false
  log : t'.log = t.log ∧ t'.worker.gate.wakeRequested = t.worker.gate.wakeRequested ∨
    t'.log = (t.now, .woken) :: t.log

variable {t t' : Tour}

theorem Others.lastRun? (h : t.Others t') : t'.log.lastRun? = t.log.lastRun? := by
  rcases h.log with ⟨hlog, -⟩ | hlog
  · rw [hlog]
  · rw [hlog]
    rfl

theorem Others.lastChoice? (h : t.Others t') : t'.log.lastChoice? = t.log.lastChoice? := by
  rcases h.log with ⟨hlog, -⟩ | hlog
  · rw [hlog]
  · rw [hlog]
    rfl

theorem Others.rested (h : t.Others t') (hrested : t.log.Rested t.now) :
    t'.log.Rested t'.now := by
  have hlater := hrested.mono h.now
  rcases h.log with ⟨hlog, -⟩ | hlog
  · rwa [hlog]
  · rw [hlog]
    exact (Log.rested_cons rfl _).2 hlater

theorem Others.own (h : t.Others t') : t'.log.own = t.log.own := by
  rcases h.log with ⟨hlog, -⟩ | hlog
  · rw [hlog]
  · rw [hlog, Log.own_woken]

theorem Known.others (h : t.Known) (hothers : t.Others t') : t'.Known := by
  rcases hothers.log with ⟨hlog, hwake⟩ | hlog
  · refine ⟨?_, ?_⟩
    · rw [hlog, hwake]
      exact h.pending
    · rw [hlog]
      exact h.paced
  · refine ⟨fun _ => ?_, ?_⟩
    · rw [hlog]
      rfl
    · rw [hlog]
      exact h.paced

theorem holds_others {φ : Phase} (h : φ.Holds t) (hothers : t.Others t') : φ.Holds t' := by
  have hrested := hothers.rested
  have hcancelled := hothers.cancelled
  have hran : ∀ {outcome}, (∃ ended ≤ t.now, t.log.lastRun? = some (ended, outcome)) →
      ∃ ended ≤ t'.now, t'.log.lastRun? = some (ended, outcome) := by
    rintro outcome ⟨ended, hended, hlast⟩
    exact ⟨ended, Nat.le_trans hended hothers.now, hothers.lastRun?.trans hlast⟩
  cases φ with
  | announcing => exact hrested h
  | timing => exact hrested h
  | entering => exact hrested h
  | inside => trivial
  | measuring => exact hran h
  | reporting => exact hran h
  | choosing => exact hran h
  | resting => exact ⟨hothers.lastChoice?.trans h.1, hran h.2⟩
  | waiting =>
    obtain ⟨hchoice, hpolicy, ended, hlast, hended⟩ := h
    exact ⟨hothers.lastChoice?.trans hchoice, hpolicy, ended, hothers.lastRun?.trans hlast, hended⟩
  | closing => exact fun hopen => hrested (h (hcancelled hopen))
  | finished => exact fun hopen => hrested (h (hcancelled hopen))

theorem Sound.others (h : t.Sound) (hothers : t.Others t') : t'.Sound := by
  cases h with
  | within visits φ h =>
    refine .within visits φ
      ⟨h.toKnown.others hothers, ?_, holds_others h.holds hothers, ?_, ?_⟩
    · rw [hothers.loop, h.stage]
    · rw [hothers.loop, h.rounds]
    · rw [hothers.own, h.own]
  | between visits h =>
    refine .between visits ⟨h.toKnown.others hothers, ?_, ?_, ?_, ?_⟩
    · rw [hothers.loop]
      exact h.idle
    · exact fun hopen => hothers.rested (h.rested (hothers.cancelled hopen))
    · rw [hothers.loop, h.rounds]
    · rw [hothers.own, h.own]

/-- Whatever is not a step of the worker is a move of others. -/
theorem others_step (t : Tour) {m : Move} (hm : ∀ outcome, m ≠ .turn outcome) :
    t.Others (t.step m) := by
  cases m with
  | pass nanos => exact ⟨Nat.le_add_right _ _, rfl, id, Or.inl ⟨rfl, rfl⟩⟩
  | drop => exact ⟨Nat.le_refl _, rfl, id, Or.inl ⟨rfl, rfl⟩⟩
  | turn outcome => exact absurd rfl (hm outcome)
  | setPoll poll => exact ⟨Nat.le_refl _, rfl, id, Or.inl ⟨rfl, rfl⟩⟩
  | signal σ =>
    cases σ with
    | wake => exact ⟨Nat.le_refl _, rfl, id, Or.inr rfl⟩
    | cancel => exact ⟨Nat.le_refl _, rfl, nofun, Or.inl ⟨rfl, rfl⟩⟩
    | pause => exact ⟨Nat.le_refl _, rfl, id, Or.inl ⟨rfl, rfl⟩⟩
    | unpause => exact ⟨Nat.le_refl _, rfl, id, Or.inl ⟨rfl, rfl⟩⟩

/-! ### Steps of the worker -/

variable {visits : List Visit} {φ : Phase} {d : Duty} {next : d.Answer → PacedProgram Duties Unit}

/-- The tour after the worker was given an answer. -/
def answered (t : Tour) (outcome : RunOutcome) (d : Duty)
    (next : d.Answer → PacedProgram Duties Unit) : Tour :=
  { t with
    worker := { t.worker with
      loop := { t.worker.loop with stage := .busy (.ready (next (t.answer outcome d))) } }
    log := ((t.noteOf outcome d).map (t.now, ·)).toList ++ t.log }

theorem turn_eq_answered (hlive : t.worker.exited = false)
    (hstage : t.worker.loop.stage = .busy (.ready (.ask (.act d) next))) (outcome : RunOutcome) :
    t.turn outcome = t.answered outcome d next := by
  simp [turn, answered, note?, Worker.turn, Loop.turn, Activity.turn, hlive, hstage]

/-- The worker is given an answer. -/
theorem Within.answered (h : t.Within visits φ) (φ' : Phase) (outcome : RunOutcome) (d : Duty)
    (next : d.Answer → PacedProgram Duties Unit)
    (hφ' : φ'.activity = .ready (next (t.answer outcome d)))
    (hnotes : φ'.notes = φ.notes ++ (t.noteOf outcome d).toList)
    (hholds : φ'.Holds (t.answered outcome d next))
    (hentered : t.noteOf outcome d = some .entered → t.log.Rested t.now) :
    (t.answered outcome d next).Within visits φ' where
  pending hwake := by
    have hbefore := h.pending hwake
    cases d <;> exact hbefore
  paced := by
    cases d with
    | enter => exact ⟨hentered rfl, h.paced⟩
    | _ => exact h.paced
  stage := congrArg Stage.busy hφ'.symm
  holds := hholds
  rounds := h.rounds
  own := by
    have hown : (t.answered outcome d next).log.own =
        t.log.own ++ (t.noteOf outcome d).toList := by
      cases d with
      | clock => exact (List.append_nil _).symm
      | pollSettings => exact Log.own_cons rfl _
      | tell event => exact Log.own_cons rfl _
      | enter => exact Log.own_cons rfl _
      | leave => exact Log.own_cons rfl _
    rw [hown, h.own, hnotes, List.append_assoc]

/-- A request of a round is answered. -/
theorem Within.exchange (h : t.Within visits φ) (φ' : Phase) (hlive : t.worker.exited = false)
    (outcome : RunOutcome) (d : Duty) (next : d.Answer → PacedProgram Duties Unit)
    (hφ : φ.activity = .ready (.ask (.act d) next))
    (hφ' : φ'.activity = .ready (next (t.answer outcome d)))
    (hnotes : φ'.notes = φ.notes ++ (t.noteOf outcome d).toList)
    (hholds : φ'.Holds (t.answered outcome d next))
    (hentered : t.noteOf outcome d = some .entered → t.log.Rested t.now) :
    (t.turn outcome).Sound := by
  rw [turn_eq_answered hlive (h.stage.trans (congrArg Stage.busy hφ)) outcome]
  exact .within visits φ' (h.answered φ' outcome d next hφ' hnotes hholds hentered)

/-- A wait begins, unless the clock cannot show its end: then the worker stays where it is. -/
theorem Within.rest {took : Delay} {r : RunOutcome} {settings chosen : PollSettings}
    (h : t.Within visits (.resting took r settings chosen)) (hlive : t.worker.exited = false)
    (outcome : RunOutcome) : (t.turn outcome).Sound := by
  obtain ⟨hchoice, ended, hended, hlast⟩ := h.holds
  cases hbegin : Wait.begin t.now (Poller.pause chosen r).1 (Poller.pause chosen r).2 with
  | none =>
    have hturn : t.turn outcome =
        { t with
          worker := { t.worker with gate := t.worker.gate.become .waiting, exited := true } } := by
      simp [turn, note?, Worker.turn, Loop.turn, Activity.turn, hlive, h.stage, Phase.activity,
        Phase.rest, hbegin]
    rw [hturn]
    exact .within visits (.resting took r settings chosen)
      ⟨⟨h.pending, h.paced⟩, h.stage, h.holds, h.rounds, h.own⟩
  | some wait =>
    have hturn : t.turn outcome =
        { t with
          worker := { t.worker with
            loop := { t.worker.loop with stage := .busy (.waiting wait fun _ => Phase.close) }
            gate := t.worker.gate.become .waiting } } := by
      simp [turn, note?, Worker.turn, Loop.turn, Activity.turn, hlive, h.stage, Phase.activity,
        Phase.rest, hbegin]
    obtain rfl := Wait.eq_of_begin hbegin
    rw [hturn]
    refine .within visits (.waiting took r settings chosen _)
      ⟨⟨h.pending, h.paced⟩, rfl, ⟨hchoice, rfl, ended, hlast, ?_⟩, h.rounds, h.own⟩
    exact Nat.add_le_add_right hended _

/-- A worker looks whether its wait ends. -/
theorem Within.wait {took : Delay} {r : RunOutcome} {settings chosen : PollSettings} {wait : Wait}
    (h : t.Within visits (.waiting took r settings chosen wait)) (hlive : t.worker.exited = false)
    (outcome : RunOutcome) : (t.turn outcome).Sound := by
  obtain ⟨hchoice, hpolicy, ended, hlast, hended⟩ := h.holds
  obtain ⟨result, looked, hcheck⟩ :
      ∃ result looked, wait.check t.now t.worker.gate = (result, looked) := ⟨_, _, rfl⟩
  have hused : looked.wakeRequested = false := Wait.wakeRequested_of_check hcheck
  cases result with
  | none =>
    have hturn : t.turn outcome = { t with worker := { t.worker with gate := looked } } := by
      have hloop : { t.worker.loop with stage := .busy (.waiting wait fun _ => Phase.close) } =
          t.worker.loop := by
        have hstage : .busy (.waiting wait fun _ => Phase.close) = t.worker.loop.stage :=
          h.stage.symm
        rw [hstage]
      by_cases hsame : looked = t.worker.gate
      · have hstays : t.turn outcome = t := by
          simp [turn, note?, Worker.turn, Loop.turn, Activity.turn, hlive, h.stage,
            Phase.activity, hcheck, hsame]
        rw [hstays, hsame]
      · simp [turn, note?, Worker.turn, Loop.turn, Activity.turn, hlive, h.stage, Phase.activity,
          hcheck, hsame, hloop]
    rw [hturn]
    exact .within visits (.waiting took r settings chosen wait)
      ⟨⟨fun hwake => by simp [hused] at hwake, h.paced⟩, h.stage, h.holds, h.rounds, h.own⟩
  | some x =>
    have hturn : t.turn outcome =
        { t with
          worker := { t.worker with
            loop := { t.worker.loop with stage := .busy (.ready Phase.close) }, gate := looked }
          log := (t.now, .waited x) :: t.log } := by
      simp [turn, note?, Worker.turn, Loop.turn, Activity.turn, hlive, h.stage, Phase.activity,
        hcheck]
    have hopen : looked.cancelled = t.worker.gate.cancelled := by
      have horders := congrArg Prod.snd (wait.orders_check t.now t.worker.gate)
      rwa [hcheck] at horders
    rw [hturn]
    refine .within visits (.closing ⟨r, settings, took, chosen, x⟩)
      ⟨⟨fun hwake => by simp [hused] at hwake, h.paced⟩, rfl, fun hcancelled => ?_, h.rounds, ?_⟩
    · refine Log.rested_of_some hlast hchoice ?_
      cases x with
      | elapsed => exact Or.inl (Nat.le_trans hended (Wait.over_of_elapsed hcheck))
      | woken =>
        obtain ⟨hwake, hallow⟩ := Wait.pending_of_woken hcheck
        exact Or.inr ⟨hpolicy.symm.trans hallow, h.pending hwake⟩
      | cancelled =>
        rw [hopen, Wait.cancelled_of_cancelled hcheck] at hcancelled
        cases hcancelled
    · show Log.own ((t.now, .waited x) :: t.log) = _
      rw [Log.own_cons rfl, h.own, List.append_assoc]
      rfl

/-- A round is over. -/
theorem Within.finished {v : Visit} (h : t.Within visits (.finished v))
    (hlive : t.worker.exited = false) (outcome : RunOutcome) : (t.turn outcome).Sound := by
  have hturn : t.turn outcome =
      { t with worker := { t.worker with loop := { t.worker.loop with stage := .atGate } } } := by
    simp [turn, note?, Worker.turn, Loop.turn, Activity.turn, hlive, h.stage, Phase.activity]
  rw [hturn]
  refine .between (visits ++ [v]) ⟨⟨h.pending, h.paced⟩, Loop.not_busy_atGate _, h.holds, ?_, ?_⟩
  · rw [List.length_append]
    exact h.rounds
  · rw [List.flatMap_append, List.flatMap_singleton]
    exact h.own

theorem Within.turn (h : t.Within visits φ) (hlive : t.worker.exited = false)
    (outcome : RunOutcome) : (t.turn outcome).Sound := by
  cases φ with
  | announcing =>
    exact h.exchange .timing hlive outcome (.tell .started) (fun _ => Phase.time)
      (congrArg Activity.ready Phase.round_eq) rfl rfl ((Log.rested_cons rfl _).2 h.holds) nofun
  | timing =>
    exact h.exchange (.entering t.now) hlive outcome .clock Phase.enter rfl rfl rfl h.holds
      nofun
  | entering started =>
    exact h.exchange (.inside started) hlive outcome .enter (fun _ => Phase.run started)
      rfl rfl rfl trivial fun _ => h.holds
  | inside started =>
    exact h.exchange (.measuring started outcome t.poll) hlive outcome .leave
      (Phase.measure started) rfl rfl rfl ⟨t.now, Nat.le_refl _, rfl⟩ nofun
  | measuring started r settings =>
    exact h.exchange (.reporting (.clamp (t.now - started)) r settings) hlive outcome .clock
      (fun ended => Phase.report (.clamp (ended - started)) r) rfl rfl rfl h.holds nofun
  | reporting took r settings =>
    exact h.exchange (.choosing took r settings) hlive outcome (.tell (Poller.event took r))
      (fun _ => Phase.choose r) rfl rfl rfl h.holds nofun
  | choosing took r settings =>
    exact h.exchange (.resting took r settings t.poll) hlive outcome .pollSettings (Phase.rest r)
      rfl rfl rfl ⟨rfl, h.holds⟩ nofun
  | resting => exact h.rest hlive outcome
  | waiting => exact h.wait hlive outcome
  | closing v =>
    exact h.exchange (.finished v) hlive outcome (.tell .finished) .done rfl rfl rfl
      (fun hopen => (Log.rested_cons rfl _).2 (h.holds hopen)) nofun
  | finished v => exact h.finished hlive outcome

theorem Between.turn (h : t.Between visits) (hlive : t.worker.exited = false)
    (outcome : RunOutcome) : (t.turn outcome).Sound := by
  have hturn : t.turn outcome =
      { t with worker := t.worker.turn (fun _ => round) t.now (t.answer outcome) } := by
    have hnote : t.note? outcome = none := by
      unfold note?
      split
      next hstage => exact absurd ⟨_, hstage⟩ h.idle
      next hstage => exact absurd ⟨_, hstage⟩ h.idle
      · rfl
    simp [Tour.turn, hlive, hnote]
  rw [hturn]
  have hturned := t.worker.turned (fun _ => round) t.now (t.answer outcome)
  generalize t.worker.turn (fun _ => round) t.now (t.answer outcome) = w' at hturned
  cases hturned with
  | begins _ _ hcancelled =>
    refine .within visits .announcing ⟨⟨h.pending, h.paced⟩, rfl, h.rested hcancelled, ?_, ?_⟩
    · exact congrArg (· + 1) h.rounds
    · exact h.own.trans (List.append_nil _).symm
  | goesOn hstage => exact absurd ⟨_, hstage⟩ h.idle
  | returns hreturned => exact absurd ⟨_, hreturned⟩ h.idle
  | fails hfails => exact absurd hfails.busy.1 h.idle
  | stays => exact .between visits h
  | exits => exact .between visits ⟨⟨h.pending, h.paced⟩, h.idle, h.rested, h.rounds, h.own⟩
  | heldBack =>
    exact .between visits ⟨⟨h.pending, h.paced⟩, nofun, h.rested, h.rounds, h.own⟩
  | freed =>
    exact .between visits
      ⟨⟨h.pending, h.paced⟩, Loop.not_busy_atGate _, h.rested, h.rounds, h.own⟩
  | stops => exact .between visits ⟨⟨h.pending, h.paced⟩, nofun, h.rested, h.rounds, h.own⟩

theorem Sound.turn (h : t.Sound) (outcome : RunOutcome) : (t.turn outcome).Sound := by
  cases hexited : t.worker.exited with
  | true =>
    rw [Tour.turn, if_pos hexited]
    exact h
  | false =>
    cases h with
    | within visits φ h => exact h.turn hexited outcome
    | between visits h => exact h.turn hexited outcome

/-! ### Whole tours -/

theorem Sound.step (h : t.Sound) (m : Move) : (t.step m).Sound := by
  by_cases hm : ∃ outcome, m = .turn outcome
  · obtain ⟨outcome, rfl⟩ := hm
    exact h.turn outcome
  · exact h.others (t.others_step fun outcome heq => hm ⟨outcome, heq⟩)

theorem Sound.run (h : t.Sound) (moves : List Move) : (t.run moves).Sound := by
  induction moves generalizing t with
  | nil => exact h
  | cons m moves ih => exact ih (h.step m)

/-- A worker that has found no task is woken, and runs its queue again at once. -/
example :
    ((new 0 false {}).run
      (List.replicate 9 (.turn (.ok .skipped)) ++ .signal .wake ::
        List.replicate 7 (.turn (.ok .processed)))).log.take 6 =
      [(0, .entered), (0, .told .started), (0, .told .finished), (0, .waited .woken), (0, .woken),
       (0, .chose {})] := rfl

end Tour

end DurableQueue
