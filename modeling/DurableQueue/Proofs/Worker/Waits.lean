import DurableQueue.Proofs.Worker.Alone

/-!
# Waits

A wait looks at its gate when it begins, whenever its worker is told something, and when its time
is over. So when and how it ends is a matter of what its worker is told and when.

* `Gate.wait` is a wait among the signals of a schedule, and `Ending` what it comes to, if the clock
  can show its end;
* `Wait.Offers` lists the ways in which a wait may end by a schedule;
* `Activity.Goes` is a program in progress in the course of time, and `Activity.goes_course` says
  that a wait of a worker comes to the same.

**A wait ends at the first moment that may end it** (`wait_ends_at_first_offer`), and a request to
wake up is used up at the end of a wait at the latest, but not before. A wait whose end the clock
cannot show panics at once, although it should last (`longest_wait_panics`).
-/

namespace DurableQueue

/-! ### Schedules -/

/-- What a worker is told, and when. -/
abbrev Schedule := List (Nat × Signal)

/-- The signals of a schedule come in the order of time, and none before a moment. -/
def Schedule.From : Nat → Schedule → Prop
  | _, [] => True
  | now, (time, _) :: rest => now ≤ time ∧ From time rest

theorem Schedule.From.le {now : Nat} {schedule : Schedule} (h : schedule.From now) :
    ∀ s ∈ schedule, now ≤ s.1 := by
  induction schedule generalizing now with
  | nil => exact nofun
  | cons first rest ih =>
    intro s hs
    rcases List.mem_cons.1 hs with rfl | hs
    · exact h.1
    · exact Nat.le_trans h.1 (ih h.2 s hs)

@[simp] theorem Signal.wakeRequested_apply (σ : Signal) (g : Gate) :
    (σ.apply g).wakeRequested = (g.wakeRequested || .wake == σ) := by
  cases σ <;> simp [apply, Gate.pause, Gate.unpause, Gate.requestWake, Gate.cancel]

/-! ### Waits among signals -/

/-- The end of a wait: why and when, the gate as it is then, and the signals that are to come. -/
structure Ending where
  outcome : WaitOutcome
  time : Nat
  gate : Gate
  left : Schedule

namespace Wait

/-- The end of a wait when its time is over, if not before. -/
def expire (w : Wait) (g : Gate) (left : Schedule) : Option Ending :=
  match w.check w.deadline g with
  | (some outcome, g) => some ⟨outcome, w.deadline, g, left⟩
  | (none, _) => none

/-- The course of a wait from some moment on. -/
def course (w : Wait) (now : Nat) (g : Gate) (schedule : Schedule) : Option Ending :=
  match w.check now g with
  | (some outcome, g) => some ⟨outcome, now, g, schedule⟩
  | (none, g) =>
    match schedule with
    | [] => w.expire g []
    | (time, σ) :: rest =>
      if time < w.deadline then w.course time (σ.apply g) rest
      else w.expire g ((time, σ) :: rest)

/-- The ways in which a wait may end by a schedule: when its time is over, when its worker is
cancelled and, if it allows that, when its worker is asked to wake up. -/
inductive Offers (w : Wait) (schedule : Schedule) : WaitOutcome → Nat → Prop
  | elapsed : Offers w schedule .elapsed w.deadline
  | cancelled {time : Nat} (h : (time, .cancel) ∈ schedule) : Offers w schedule .cancelled time
  | woken {time : Nat} (hpolicy : w.policy = .allow) (h : (time, .wake) ∈ schedule) :
      Offers w schedule .woken time

end Wait

/-- Wait from some moment on. A wait that panics comes to nothing. -/
def Gate.wait (g : Gate) (now : Nat) (timeout : Delay) (policy : WakePolicy)
    (schedule : Schedule) : Option Ending :=
  (Wait.begin now timeout policy).bind fun w => w.course now (g.become .waiting) schedule

/-! ### Looks at the gate -/

namespace Wait

variable {w : Wait} {now : Nat} {g g' : Gate} {schedule : Schedule} {e : Ending}

theorem check_of_pending (hpending : g.wakeRequested = true) (hpolicy : w.policy = .allow)
    (now : Nat) :
    w.check now g = (some .woken, { g with wakeRequested := false }.become .running) := by
  simp [check, hpending, hpolicy]

theorem check_of_quiet (hquiet : ¬ (g.wakeRequested = true ∧ w.policy = .allow))
    (hlive : g.cancelled = false) (now : Nat) :
    w.check now g =
      if w.deadline ≤ now then
        (some .elapsed, { g with wakeRequested := false }.become .running)
      else (none, { g with wakeRequested := false }) := by
  simp [check, if_neg hquiet, hlive]

theorem check_of_cancelled (hquiet : ¬ (g.wakeRequested = true ∧ w.policy = .allow))
    (hcancelled : g.cancelled = true) (now : Nat) :
    w.check now g = (some .cancelled, { g with wakeRequested := false }) := by
  simp [check, if_neg hquiet, hcancelled]

/-- A look uses up the request to wake up. -/
theorem wakeRequested_of_check {looked : Option WaitOutcome × Gate} (h : w.check now g = looked) :
    looked.2.wakeRequested = false := by
  rw [← h]
  unfold check
  split_ifs <;> rfl

theorem pending_of_woken (h : w.check now g = (some .woken, g')) :
    g.wakeRequested = true ∧ w.policy = .allow := by
  unfold check at h
  split at h
  · assumption
  · split_ifs at h <;> cases h

theorem over_of_elapsed (h : w.check now g = (some .elapsed, g')) : w.deadline ≤ now := by
  unfold check at h
  split_ifs at h with _ _ hover
  · cases h
  · cases h
  · exact hover
  · cases h

theorem cancelled_of_cancelled (h : w.check now g = (some .cancelled, g')) :
    g.cancelled = true := by
  unfold check at h
  split_ifs at h with _ hcancelled
  · cases h
  · exact hcancelled
  · cases h
  · cases h

/-- A wait that goes on has used up the request to wake up. -/
theorem quiet_of_none (h : w.check now g = (none, g')) (hlive : g.cancelled = false) :
    ¬ (g'.wakeRequested = true ∧ w.policy = .allow) ∧ g'.cancelled = false := by
  have hused : g'.wakeRequested = false := wakeRequested_of_check h
  have horders := congrArg Prod.snd (w.orders_check now g)
  rw [h] at horders
  exact ⟨by simp [hused], horders.trans hlive⟩

theorem course_of_some {outcome : WaitOutcome} (h : w.check now g = (some outcome, g'))
    (schedule : Schedule) : w.course now g schedule = some ⟨outcome, now, g', schedule⟩ := by
  simp [course, h]

theorem exists_expire (w : Wait) (g : Gate) (left : Schedule) :
    ∃ outcome g', w.check w.deadline g = (some outcome, g') ∧
      w.expire g left = some ⟨outcome, w.deadline, g', left⟩ := by
  unfold expire check
  split_ifs
  · exact ⟨_, _, rfl, rfl⟩
  · exact ⟨_, _, rfl, rfl⟩
  · exact ⟨_, _, rfl, rfl⟩
  · exact absurd (Nat.le_refl _) ‹_›

/-- Every wait ends. -/
theorem exists_course (w : Wait) (now : Nat) (g : Gate) (schedule : Schedule) :
    ∃ e, w.course now g schedule = some e := by
  fun_induction course w now g schedule with
  | case1 => exact ⟨_, rfl⟩
  | case2 now g looked =>
    obtain ⟨_, _, -, h⟩ := w.exists_expire looked []
    exact ⟨_, h⟩
  | case3 now g looked hcheck time σ rest htime ih => exact ih
  | case4 now g looked hcheck time σ rest =>
    obtain ⟨_, _, -, h⟩ := w.exists_expire looked ((time, σ) :: rest)
    exact ⟨_, h⟩

/-- Only a request to wake up wakes a worker. -/
theorem course_woken (he : w.course now g schedule = some e) (hwoken : e.outcome = .woken) :
    w.policy = .allow ∧ (g.wakeRequested = true ∨ ∃ time, (time, .wake) ∈ schedule) := by
  have hlast : ∀ {now g looked left}, w.check now g = (none, looked) →
      w.expire looked left = some e → False := by
    intro now g looked left hcheck hlast
    obtain ⟨outcome, g', hlook, hexpire⟩ := w.exists_expire looked left
    rw [hexpire] at hlast
    cases hlast
    obtain rfl : outcome = .woken := hwoken
    have hused : looked.wakeRequested = false := wakeRequested_of_check hcheck
    exact absurd (pending_of_woken hlook).1 (by simp [hused])
  fun_induction course w now g schedule with
  | case1 schedule now g outcome g' hcheck =>
    cases he
    obtain rfl : outcome = .woken := hwoken
    have hpending := pending_of_woken hcheck
    exact ⟨hpending.2, Or.inl hpending.1⟩
  | case2 now g looked hcheck => exact (hlast hcheck he).elim
  | case3 now g looked hcheck time σ rest htime ih =>
    obtain ⟨hpolicy, hpending | ⟨later, hlater⟩⟩ := ih he
    · have hused : looked.wakeRequested = false := wakeRequested_of_check hcheck
      obtain rfl : .wake = σ := by simpa [hused] using hpending
      exact ⟨hpolicy, Or.inr ⟨time, List.mem_cons_self⟩⟩
    · exact ⟨hpolicy, Or.inr ⟨later, List.mem_cons_of_mem _ hlater⟩⟩
  | case4 now g looked hcheck => exact (hlast hcheck he).elim

/-! ### The end of a wait -/

/-- The end of a wait is the first that its schedule offers. -/
structure Ends (w : Wait) (schedule : Schedule) (e : Ending) : Prop where
  offered : w.Offers schedule e.outcome e.time
  earliest : ∀ {outcome time}, w.Offers schedule outcome time → e.time ≤ time
  /-- What comes after the end is left. -/
  split : ∃ past, schedule = past ++ e.left ∧ (∀ s ∈ past, s.1 ≤ e.time) ∧
    ∀ s ∈ e.left, e.time ≤ s.1
  /-- No request to wake up outlasts the end. -/
  usedUp : e.outcome ≠ .cancelled → e.gate.wakeRequested = false ∧ e.gate.cancelled = false

/-- The time of a wait is over before anything else happens. -/
theorem ends_elapsed (hlater : ∀ s ∈ schedule, w.deadline ≤ s.1) (hlive : g.cancelled = false) :
    w.Ends schedule
      ⟨.elapsed, w.deadline, { g with wakeRequested := false }.become .running, schedule⟩ where
  offered := .elapsed
  earliest hoffer := by
    cases hoffer with
    | elapsed => exact Nat.le_refl _
    | cancelled h => exact hlater _ h
    | woken _ h => exact hlater _ h
  split := ⟨[], rfl, nofun, hlater⟩
  usedUp _ := ⟨rfl, hlive⟩

variable {time : Nat} {σ : Signal} {rest : Schedule}

/-- The first signal ends a wait. -/
theorem ends_first {outcome : WaitOutcome} (hoffer : w.Offers ((time, σ) :: rest) outcome time)
    (hbefore : time ≤ w.deadline) (hrest : rest.From time)
    (hused : outcome ≠ .cancelled → g.wakeRequested = false ∧ g.cancelled = false) :
    w.Ends ((time, σ) :: rest) ⟨outcome, time, g, rest⟩ where
  offered := hoffer
  earliest hoffer := by
    have hall : Schedule.From time ((time, σ) :: rest) := And.intro (Nat.le_refl _) hrest
    have hlater := hall.le
    cases hoffer with
    | elapsed => exact hbefore
    | cancelled h => exact hlater _ h
    | woken _ h => exact hlater _ h
  split := ⟨[(time, σ)], rfl, by simp, hrest.le⟩
  usedUp := hused

/-- The first signal does not concern a wait. -/
theorem Ends.cons (h : w.Ends rest e) (hbefore : time ≤ w.deadline) (hrest : rest.From time)
    (hcancel : σ ≠ .cancel) (hwake : σ = .wake → w.policy ≠ .allow) :
    w.Ends ((time, σ) :: rest) e where
  offered := by
    obtain ⟨outcome, _, _, _⟩ := e
    cases h.offered with
    | elapsed => exact .elapsed
    | cancelled h => exact .cancelled (List.mem_cons_of_mem _ h)
    | woken hpolicy h => exact .woken hpolicy (List.mem_cons_of_mem _ h)
  earliest hoffer := by
    cases hoffer with
    | elapsed => exact h.earliest .elapsed
    | cancelled hmem =>
      refine h.earliest (.cancelled ((List.mem_cons.1 hmem).resolve_left fun heq => ?_))
      exact hcancel (congrArg Prod.snd heq).symm
    | woken hpolicy hmem =>
      refine h.earliest (.woken hpolicy ((List.mem_cons.1 hmem).resolve_left fun heq => ?_))
      exact hwake (congrArg Prod.snd heq).symm hpolicy
  split := by
    obtain ⟨past, hsplit, hpast, hleft⟩ := h.split
    have htime : time ≤ e.time := by
      obtain ⟨outcome, _, _, _⟩ := e
      cases h.offered with
      | elapsed => exact hbefore
      | cancelled h => exact hrest.le _ h
      | woken _ h => exact hrest.le _ h
    refine ⟨(time, σ) :: past, by rw [hsplit]; rfl, fun s hs => ?_, hleft⟩
    rcases List.mem_cons.1 hs with rfl | hs
    · exact htime
    · exact hpast s hs
  usedUp := h.usedUp

theorem expire_of_quiet (hquiet : ¬ (g.wakeRequested = true ∧ w.policy = .allow))
    (hlive : g.cancelled = false) (left : Schedule) :
    w.expire g left =
      some ⟨.elapsed, w.deadline, { g with wakeRequested := false }.become .running, left⟩ := by
  rw [expire, check_of_quiet hquiet hlive, if_pos (Nat.le_refl _)]

/-- A wait that is not to end at once ends at the first moment that its schedule offers. -/
theorem course_ends (hquiet : ¬ (g.wakeRequested = true ∧ w.policy = .allow))
    (hlive : g.cancelled = false) (hnow : now ≤ w.deadline) (hschedule : schedule.From now) :
    ∃ e, w.course now g schedule = some e ∧ w.Ends schedule e := by
  fun_induction course w now g schedule with
  | case1 schedule now g outcome g' hcheck =>
    rw [check_of_quiet hquiet hlive] at hcheck
    split_ifs at hcheck with hover
    · obtain rfl : now = w.deadline := Nat.le_antisymm hnow hover
      cases hcheck
      exact ⟨_, rfl, ends_elapsed hschedule.le hlive⟩
    · cases hcheck
  | case2 now g looked hcheck =>
    obtain ⟨hlooked, hstill⟩ := quiet_of_none hcheck hlive
    exact ⟨_, expire_of_quiet hlooked hstill [], ends_elapsed nofun hstill⟩
  | case3 now g looked hcheck time σ rest htime ih =>
    obtain ⟨hlooked, hstill⟩ := quiet_of_none hcheck hlive
    have hrest := hschedule.2
    have hbefore := Nat.le_of_lt htime
    cases σ with
    | pause =>
      obtain ⟨e, he, hends⟩ := ih hlooked hstill hbefore hrest
      exact ⟨e, he, hends.cons hbefore hrest nofun nofun⟩
    | unpause =>
      obtain ⟨e, he, hends⟩ := ih hlooked hstill hbefore hrest
      exact ⟨e, he, hends.cons hbefore hrest nofun nofun⟩
    | wake =>
      by_cases hpolicy : w.policy = .allow
      · exact ⟨_, course_of_some (check_of_pending rfl hpolicy time) rest,
          ends_first (.woken hpolicy List.mem_cons_self) hbefore hrest fun _ => ⟨rfl, hstill⟩⟩
      · obtain ⟨e, he, hends⟩ := ih (fun h => hpolicy h.2) hstill hbefore hrest
        exact ⟨e, he, hends.cons hbefore hrest nofun fun _ => hpolicy⟩
    | cancel =>
      have hcancelled := check_of_cancelled (w := w) (g := looked.cancel) hlooked rfl time
      exact ⟨_, course_of_some hcancelled rest,
        ends_first (.cancelled List.mem_cons_self) hbefore hrest nofun⟩
  | case4 now g looked hcheck time σ rest htime =>
    obtain ⟨hlooked, hstill⟩ := quiet_of_none hcheck hlive
    have hlater : Schedule.From w.deadline ((time, σ) :: rest) :=
      And.intro (Nat.le_of_not_lt htime) hschedule.2
    exact ⟨_, expire_of_quiet hlooked hstill _, ends_elapsed hlater.le hstill⟩

end Wait

/-! ### Waits of workers -/

variable {A : Signature}

/-- A program in progress goes on in the course of time, while its worker is told something. -/
inductive Activity.Goes : Nat → Gate → Activity A → Schedule → Nat → Gate → Activity A → Prop
  | refl (now : Nat) (g : Gate) (a : Activity A) : Goes now g a [] now g a
  | turn {now now' : Nat} {g looked g' : Gate} {a b a' : Activity A} {told : Schedule}
      (h : a.turn now g = .moves b looked) (hrest : Goes now looked b told now' g' a') :
      Goes now g a told now' g' a'
  | told {now time now' : Nat} {g g' : Gate} {a a' : Activity A} {σ : Signal} {told : Schedule}
      (htime : now ≤ time) (hrest : Goes time (σ.apply g) a told now' g' a') :
      Goes now g a ((time, σ) :: told) now' g' a'
  | passes {now time now' : Nat} {g g' : Gate} {a a' : Activity A} {told : Schedule}
      (htime : now ≤ time) (hrest : Goes time g a told now' g' a') : Goes now g a told now' g' a'

theorem Activity.turn_of_check {w : Wait} {now : Nat} {g g' : Gate} {outcome : WaitOutcome}
    (h : w.check now g = (some outcome, g')) (next : WaitOutcome → PacedProgram A Unit) :
    (waiting w next).turn now g = .moves (.ready (next outcome)) g' := by
  simp [turn, h]

/-- A look that does not end a wait changes nothing but the gate. -/
theorem Activity.Goes.look {w : Wait} {next : WaitOutcome → PacedProgram A Unit} {now now' : Nat}
    {g looked g' : Gate} {a : Activity A} {told : Schedule} (h : w.check now g = (none, looked))
    (hrest : Goes now looked (waiting w next) told now' g' a) :
    Goes now g (waiting w next) told now' g' a := by
  by_cases hsame : looked = g
  · exact hsame ▸ hrest
  · exact .turn (by simp [Activity.turn, h, hsame]) hrest

theorem Activity.goes_course {w : Wait} {now : Nat} {g : Gate} {schedule : Schedule} {e : Ending}
    (next : WaitOutcome → PacedProgram A Unit) (hnow : now ≤ w.deadline)
    (hschedule : schedule.From now) (he : w.course now g schedule = some e) :
    ∃ told, schedule = told ++ e.left ∧
      Goes now g (waiting w next) told e.time e.gate (.ready (next e.outcome)) := by
  have hlast : ∀ {now g looked left}, now ≤ w.deadline → w.check now g = (none, looked) →
      w.expire looked left = some e → ∃ told, left = told ++ e.left ∧
        Goes now g (waiting w next) told e.time e.gate (.ready (next e.outcome)) := by
    intro now g looked left hnow hcheck hlast
    obtain ⟨outcome, g', hlook, hexpire⟩ := w.exists_expire looked left
    rw [hexpire] at hlast
    cases hlast
    exact ⟨[], rfl, .look hcheck (.passes hnow (.turn (turn_of_check hlook next) (.refl ..)))⟩
  fun_induction w.course now g schedule with
  | case1 schedule now g outcome g' hcheck =>
    cases he
    exact ⟨[], rfl, .turn (turn_of_check hcheck next) (.refl ..)⟩
  | case2 now g looked hcheck => exact hlast hnow hcheck he
  | case3 now g looked hcheck time σ rest htime ih =>
    obtain ⟨told, hsplit, hgoes⟩ := ih (Nat.le_of_lt htime) hschedule.2 he
    exact ⟨(time, σ) :: told, by rw [hsplit]; rfl, .look hcheck (.told hschedule.1 hgoes)⟩
  | case4 now g looked hcheck => exact hlast hnow hcheck he

/-! ### Waits from their beginning -/

section

variable (g : Gate) (now : Nat) (timeout : Delay) (policy : WakePolicy) (schedule : Schedule)

theorem Gate.wait_of_lt (hshown : now + timeout.nanos < clockEnd) :
    g.wait now timeout policy schedule =
      Wait.course ⟨now + timeout.nanos, policy⟩ now (g.become .waiting) schedule := by
  rw [wait, Wait.begin_of_lt hshown, Option.bind_some]

/-- A request to wake up that is pending ends a wait that allows it at once. -/
theorem Gate.wait_of_pending (hshown : now + timeout.nanos < clockEnd) (hpolicy : policy = .allow)
    (hpending : g.wakeRequested = true) :
    g.wait now timeout policy schedule =
      some ⟨.woken, now, { g with wakeRequested := false }.become .running, schedule⟩ := by
  rw [g.wait_of_lt now timeout policy schedule hshown]
  exact Wait.course_of_some (Wait.check_of_pending (g := g.become .waiting) hpending hpolicy now)
    schedule

theorem Gate.wakeRequested_foldl (signals : List Signal) :
    (signals.foldl (fun g σ => σ.apply g) g).wakeRequested =
      (g.wakeRequested || signals.contains .wake) := by
  induction signals generalizing g with
  | nil => simp
  | cons σ signals ih =>
    rw [List.foldl_cons, ih, Signal.wakeRequested_apply, List.contains_cons, Bool.or_assoc]

/-- A wait that begins with no request pending but those made in between: only these and the later
ones wake its worker. -/
theorem Gate.wait_after (hshown : now + timeout.nanos < clockEnd) (hused : g.wakeRequested = false)
    (between : List Signal) :
    ∃ e, (between.foldl (fun g σ => σ.apply g) g).wait now timeout policy schedule = some e ∧
      (policy = .allow → .wake ∈ between → e.outcome = .woken ∧ e.time = now) ∧
      (e.outcome = .woken →
        policy = .allow ∧ (.wake ∈ between ∨ ∃ time, (time, .wake) ∈ schedule)) := by
  have hpending := g.wakeRequested_foldl between
  rw [hused, Bool.false_or] at hpending
  obtain ⟨e, he⟩ := Wait.exists_course ⟨now + timeout.nanos, policy⟩ now
    ((between.foldl (fun g σ => σ.apply g) g).become .waiting) schedule
  have hwait := Gate.wait_of_lt (between.foldl (fun g σ => σ.apply g) g) now timeout policy schedule
    hshown
  refine ⟨e, hwait.trans he, fun hpolicy hwake => ?_, fun hwoken => ?_⟩
  · have hend := Gate.wait_of_pending (between.foldl (fun g σ => σ.apply g) g) now timeout policy
      schedule hshown hpolicy (by simpa [hpending] using hwake)
    cases (hwait.trans he).symm.trans hend
    exact ⟨rfl, rfl⟩
  · refine (Wait.course_woken he hwoken).imp_right (Or.imp_left fun h => ?_)
    simpa using hpending.symm.trans h

/-- **A wait ends at the first moment that may end it.** As long as the clock can show its end: a
request to wake up that is pending when a wait begins ends it at once, if the wait allows it.
Otherwise it ends when its time is over, when its worker is cancelled and, if it allows that, when
its worker is asked to wake up, whichever comes first. Unless it was cancelled no request outlasts
it. So the next wait is woken only by what is asked for after this one has ended, and is woken at
once by what is asked for before it begins. A wait whose end the clock cannot show panics. -/
theorem wait_ends_at_first_offer (hlive : g.cancelled = false) (hschedule : schedule.From now)
    (next : WaitOutcome → PacedProgram A Unit) :
    (now + timeout.nanos < clockEnd →
      ∃ e, g.wait now timeout policy schedule = some e ∧
        (if policy = .allow ∧ g.wakeRequested = true then e.outcome = .woken ∧ e.time = now
        else
          Wait.Offers ⟨now + timeout.nanos, policy⟩ schedule e.outcome e.time ∧
          ∀ outcome time, Wait.Offers ⟨now + timeout.nanos, policy⟩ schedule outcome time →
            e.time ≤ time) ∧
        (∃ told, schedule = told ++ e.left ∧ (∀ s ∈ told, s.1 ≤ e.time) ∧
          (∀ s ∈ e.left, e.time ≤ s.1) ∧
          Activity.Goes now g (.ready (.ask (.wait timeout policy) next)) told
            e.time e.gate (.ready (next e.outcome))) ∧
        (e.outcome ≠ .cancelled → e.gate.wakeRequested = false ∧ e.gate.cancelled = false ∧
          ∀ (between : List Signal) now' timeout' policy' schedule',
            now' + timeout'.nanos < clockEnd → ∃ e',
            (between.foldl (fun g σ => σ.apply g) e.gate).wait now' timeout' policy' schedule' =
              some e' ∧
            (policy' = .allow → .wake ∈ between → e'.outcome = .woken ∧ e'.time = now') ∧
            (e'.outcome = .woken →
              policy' = .allow ∧ (.wake ∈ between ∨ ∃ time, (time, .wake) ∈ schedule')))) ∧
    (clockEnd ≤ now + timeout.nanos →
      g.wait now timeout policy schedule = none ∧
        (Activity.ready (.ask (.wait timeout policy) next)).turn now g =
          .fails (g.become .waiting)) := by
  refine ⟨fun hshown => ?_, fun hbeyond => ?_⟩
  · have hnow : now ≤ (⟨now + timeout.nanos, policy⟩ : Wait).deadline := Nat.le_add_right _ _
    have hwait := g.wait_of_lt now timeout policy schedule hshown
    have hbegins : (Activity.ready (.ask (.wait timeout policy) next)).turn now g =
        .moves (.waiting ⟨now + timeout.nanos, policy⟩ next) (g.become .waiting) := by
      simp [Activity.turn, Wait.begin_of_lt hshown]
    have hgoes : ∀ {e}, g.wait now timeout policy schedule = some e → ∃ told,
        schedule = told ++ e.left ∧ Activity.Goes now g (.ready (.ask (.wait timeout policy) next))
          told e.time e.gate (.ready (next e.outcome)) := by
      intro e he
      obtain ⟨told, hsplit, hrest⟩ :=
        Activity.goes_course next hnow hschedule (hwait.symm.trans he)
      exact ⟨told, hsplit, .turn hbegins hrest⟩
    by_cases hpending : policy = .allow ∧ g.wakeRequested = true
    · have he := g.wait_of_pending now timeout policy schedule hshown hpending.1 hpending.2
      obtain ⟨told, hsplit, hrest⟩ := hgoes he
      obtain rfl : told = [] := by simpa using hsplit
      refine ⟨_, he, ?_, ⟨[], rfl, List.forall_mem_nil _, hschedule.le, hrest⟩,
        fun _ => ⟨rfl, hlive, ?_⟩⟩
      · rw [if_pos hpending]
        exact ⟨rfl, rfl⟩
      · exact fun between now' timeout' policy' schedule' hshown' =>
          Gate.wait_after _ now' timeout' policy' schedule' hshown' rfl between
    · obtain ⟨e, he, hends⟩ := Wait.course_ends (w := ⟨now + timeout.nanos, policy⟩)
        (g := g.become .waiting) (fun h => hpending h.symm) hlive hnow hschedule
      obtain ⟨told, hsplit, hrest⟩ := hgoes (hwait.trans he)
      obtain ⟨past, hpast, hbefore, hafter⟩ := hends.split
      obtain rfl : past = told := List.append_cancel_right (hpast.symm.trans hsplit)
      refine ⟨e, hwait.trans he, ?_, ⟨past, hsplit, hbefore, hafter, hrest⟩, fun hend => ?_⟩
      · rw [if_neg hpending]
        exact ⟨hends.offered, fun _ _ => hends.earliest⟩
      · have hused := hends.usedUp hend
        exact ⟨hused.1, hused.2, fun between now' timeout' policy' schedule' hshown' =>
          e.gate.wait_after now' timeout' policy' schedule' hshown' hused.1 between⟩
  · have hbegin := Wait.begin_of_le hbeyond policy
    exact ⟨by rw [Gate.wait, hbegin, Option.bind_none], by simp [Activity.turn, hbegin]⟩

end

/-- A wait that denies requests outlasts them all, and the next one ends with the first request that
comes after it. -/
theorem denied_wait_uses_requests_up :
    ∃ e, (Gate.new false).requestWake.wait 0 (.clamp 5) .deny
        [(2, .wake), (4, .wake), (7, .wake)] = some e ∧
      e.outcome = .elapsed ∧ e.time = 5 ∧ e.left = [(7, .wake)] ∧ e.gate.wakeRequested = false ∧
      ∃ e', e.gate.requestWake.wait 7 (.clamp 9) .allow [] = some e' ∧
        e'.outcome = .woken ∧ e'.time = 7 := by
  have hschedule : Schedule.From 0 [(2, .wake), (4, .wake), (7, .wake)] := by
    simp [Schedule.From]
  obtain ⟨e, he, -, -, hnext⟩ := (wait_ends_at_first_offer (A := ⟨Empty, nofun⟩)
    (Gate.new false).requestWake 0 (.clamp 5) .deny _ rfl hschedule fun _ => .done ()).1 (by decide)
  have hrun : (Gate.new false).requestWake.wait 0 (.clamp 5) .deny
      [(2, .wake), (4, .wake), (7, .wake)] =
      some ⟨.elapsed, 5, Gate.new false, [(7, .wake)]⟩ := rfl
  cases he.symm.trans hrun
  obtain ⟨e', he', hwoken, -⟩ := (hnext nofun).2.2 [.wake] 7 (.clamp 9) .allow [] (by decide)
  exact ⟨_, hrun, rfl, rfl, rfl, (hnext nofun).1, e', he', hwoken rfl (by simp)⟩

/-- The longest wait that can be written down should end with its cancellation, but the clock cannot
show its end: it comes to nothing. -/
theorem longest_wait_panics :
    Wait.Offers ⟨(Delay.clamp 18446744073709551615000000000).nanos, .deny⟩ [(5, .cancel)]
        .cancelled 5 ∧
      (Gate.new false).wait 0 (.clamp 18446744073709551615000000000) .deny [(5, .cancel)] = none ∧
      ∀ next : WaitOutcome → PacedProgram ⟨Empty, nofun⟩ Unit,
        (Activity.ready (.ask (.wait (.clamp 18446744073709551615000000000) .deny) next)).turn 0
          (Gate.new false) = .fails ((Gate.new false).become .waiting) :=
  ⟨.cancelled List.mem_cons_self, rfl, fun _ => rfl⟩

end DurableQueue
