import DurableQueue.Proofs.Service.Every
import DurableQueue.Proofs.Service.Proposals

/-!
# Updates of a service

An update of a service is made only when all of its configurations name registered queues. Then they
are given, in the order of the list, to the cells of the queues that they name. Every queue that
holds one of these cells goes by it, whether it is named or not.

* `Service.rounds` are the proposals that an update makes, one round for each configuration, and
  `Service.Course` is a service that goes through some rounds. `Course.queue` and `Course.live` say
  what a queue and a cell make of them;
* `Reconfigured` says what becomes of a queue (`Course.reconfigured`), and `Apart` that nobody else
  who is named holds one of its cells.

**Updates are exact, or nothing happens** (`update_is_exact`). A queue that is not named is changed
through the cells that it shares (`unnamed_queue_is_changed`).
-/

namespace DurableQueue

variable {A : Signature} {ω υ : Type} {judge : Judge ω υ}

/-! ### Rounds -/

/-- The rounds for one queue. -/
def roundsOf (queue : QueueId) (rounds : List Round) : List Round :=
  rounds.filter fun r => r.config.location.queue = queue

/-- The rounds that come to one cell of some settings. -/
def roundsTo (a : Addresses) (g : Group) (rounds : List Round) : List Round :=
  rounds.filter fun r => r.address g = a g

/-- The proposals that come to one cell of some settings. -/
def proposalsTo (a : Addresses) (g : Group) (rounds : List Round) : List Proposal :=
  (roundsTo a g rounds).flatMap fun r => r.proposals.filter fun p => p.value.group = g

theorem proposalsTo_cons (a : Addresses) (g : Group) (r : Round) (rounds : List Round) :
    proposalsTo a g (r :: rounds) =
      if r.address g = a g then
        (r.proposals.filter fun p => p.value.group = g) ++ proposalsTo a g rounds
      else proposalsTo a g rounds := by
  rw [proposalsTo, roundsTo, List.filter_cons]
  by_cases h : r.address g = a g
  · rw [if_pos (by simpa using h), if_pos h, List.flatMap_cons]
    rfl
  · rw [if_neg (by simpa using h), if_neg h]
    rfl

theorem proposalsTo_append (a : Addresses) (g : Group) (rounds rounds' : List Round) :
    proposalsTo a g (rounds ++ rounds') = proposalsTo a g rounds ++ proposalsTo a g rounds' := by
  rw [proposalsTo, roundsTo, List.filter_append, List.flatMap_append]
  rfl

theorem mem_proposalsTo {a : Addresses} {g : Group} {rounds : List Round} {p : Proposal} :
    p ∈ proposalsTo a g rounds ↔
      ∃ r ∈ roundsTo a g rounds, p ∈ r.proposals ∧ p.value.group = g := by
  simp [proposalsTo]

/-! ### One round -/

namespace LiveQueue

theorem stays_setGroup (judge : Judge ω υ) (q : LiveQueue A ω) (new : GroupValue) (u : υ) :
    q.Stays (q.setGroup judge new u).2.1 := ⟨rfl, rfl, rfl, rfl, rfl⟩

/-- What becomes of a queue when something is given to some cells. -/
def Sees (a : Addresses) (q q' : LiveQueue A ω) : Prop :=
  q.Stays q' ∧ ((∀ g, q.address g ≠ a g) → q' = q)

end LiveQueue

namespace Service

variable {s s' : Service A ω} {name : QueueId} {q : LiveQueue A ω} {rounds : List Round}

/-- A queue is still there, and it is as it was if it holds none of the cells. -/
theorem sees_setGroups (hq : s.queues.get? name = some q) (a : Addresses)
    (news : List GroupValue) (u : υ) :
    ∃ q', (s.setGroups judge a news u).2.1.queues.get? name = some q' ∧ q.Sees a q' := by
  refine setGroups_keeps judge (I := fun s' => ∃ q', s'.queues.get? name = some q' ∧ q.Sees a q')
    (fun s u new _ ⟨q', hq', hstays, hsame⟩ => ?_) ⟨q, hq, .refl q, fun _ => rfl⟩ u
  rw [get?_setGroup, hq', Option.map_some]
  refine ⟨_, rfl, ?_, fun hnone => ?_⟩
  · split
    · exact hstays.trans (LiveQueue.stays_setGroup ..)
    · exact hstays
  · have hne : q'.address new.group ≠ a new.group := by
      rw [hstays.address]
      exact hnone new.group
    rw [if_neg hne, hsame hnone]

theorem sees_give (judge : Judge ω υ) (hq : s.queues.get? name = some q) (a : Addresses)
    (config : QueueConfig) (u : υ) :
    ∃ q', (s.give judge a config u).2.1.queues.get? name = some q' ∧ q.Sees a q' :=
  sees_setGroups hq a (targets (s.mode a) config.settings) u

theorem contains_give (judge : Judge ω υ) (s : Service A ω) (a : Addresses)
    (config : QueueConfig) (u : υ) (queue : QueueId) :
    (s.give judge a config u).2.1.queues.contains queue = s.queues.contains queue :=
  setGroups_keeps judge (I := fun s' => s'.queues.contains queue = s.queues.contains queue)
    (fun s' u new _ hs' => by rw [contains_setGroup, hs']) rfl u

theorem shards_give (s : Service A ω) (a : Addresses) (config : QueueConfig) (u : υ) :
    (s.give judge a config u).2.1.shards = s.shards :=
  setGroups_keeps judge (I := fun s' => s'.shards = s.shards) (fun _ _ _ _ hs' => hs') rfl u

/-- A configuration leaves the mode of every cell. -/
theorem mode_give (s : Service A ω) (a b : Addresses) (config : QueueConfig) (u : υ) :
    (s.give judge a config u).2.1.mode b = s.mode b :=
  setTargets_keeps judge (I := fun s' => s'.mode b = s.mode b)
    (fun _ _ u hs' hmode => (mode_setGroup judge hmode u b).trans hs') rfl config.settings u

theorem live_give (s : Service A ω) (a b : Addresses) (config : QueueConfig) (u : υ) (g : Group) :
    ((s.give judge a config u).2.1.cells.load b).live g =
      ((s.cells.load b).live g).follow (proposalsTo b g [(s.give judge a config u).1]) := by
  refine (live_setGroups judge a b _ s u g).trans ?_
  rw [proposalsTo_cons]
  have haddress : (s.give judge a config u).1.address g = b g ↔ b g = a g := eq_comm
  by_cases h : b g = a g
  · rw [if_pos h, if_pos (haddress.2 h)]
    exact congrArg _ (List.append_nil _).symm
  · rw [if_neg h, if_neg (mt haddress.1 h)]
    rfl

theorem map_value_give (s : Service A ω) (a : Addresses) (config : QueueConfig) (u : υ) :
    (s.give judge a config u).1.proposals.map (·.value) = targets (s.mode a) config.settings :=
  map_value_proposals ..

/-! ### Several rounds -/

/-- A service goes through rounds, each of which is for the cells of the queue that it names. -/
inductive Course (judge : Judge ω υ) : Service A ω → List Round → Service A ω → Prop
  | done (s : Service A ω) : Course judge s [] s
  | round {s s' : Service A ω} {q : LiveQueue A ω} {rounds : List Round} (config : QueueConfig)
      (u : υ) (hq : s.queues.get? config.location.queue = some q)
      (h : Course judge (s.give judge q.address config u).2.1 rounds s') :
      Course judge s ((s.give judge q.address config u).1 :: rounds) s'

namespace Course

variable (h : Course judge s rounds s')

include h

theorem shards : s'.shards = s.shards := by
  induction h with
  | done => rfl
  | round config u hq h ih => rw [ih, shards_give]

/-- No queue comes or goes. -/
theorem contains (queue : QueueId) : s'.queues.contains queue = s.queues.contains queue := by
  induction h with
  | done => rfl
  | round config u hq h ih => rw [ih, contains_give]

theorem mode (a : Addresses) : s'.mode a = s.mode a := by
  induction h with
  | done => rfl
  | round config u hq h ih => rw [ih, mode_give]

/-- A queue is still there, and it is as it was if none of its cells has come up. -/
theorem queue (hq : s.queues.get? name = some q) :
    ∃ q', s'.queues.get? name = some q' ∧ q.Stays q' ∧
      ((∀ r ∈ rounds, ∀ g, r.address g ≠ q.address g) → q' = q) := by
  induction h generalizing q with
  | done => exact ⟨q, hq, .refl q, fun _ => rfl⟩
  | @round _ _ named _ config u _ h ih =>
    obtain ⟨q₁, hq₁, hstays, hsame⟩ := sees_give judge hq named.address config u
    obtain ⟨q', hq', hstays', hsame'⟩ := ih hq₁
    refine ⟨q', hq', hstays.trans hstays', fun hnone => ?_⟩
    obtain ⟨hfirst, hrest⟩ := List.forall_mem_cons.1 hnone
    have hunchanged := hsame fun g => (hfirst g).symm
    subst hunchanged
    exact hsame' hrest

/-- A cell goes by the proposals that come to it. -/
theorem live (a : Addresses) (g : Group) :
    (s'.cells.load a).live g = ((s.cells.load a).live g).follow (proposalsTo a g rounds) := by
  induction h with
  | done => rfl
  | round config u hq h ih =>
    rw [ih, live_give, ← LiveValue.follow_append, ← proposalsTo_append]
    rfl

/-- The proposals to a cell are made to its live value one after the other. -/
theorem leads (a : Addresses) (g : Group) :
    ((s.cells.load a).live g).Leads (proposalsTo a g rounds) := by
  induction h with
  | done => trivial
  | @round s _ first _ config u hq h ih =>
    rw [live_give] at ih
    rw [← List.singleton_append, proposalsTo_append]
    refine LiveValue.Leads.append ?_ ih
    rw [proposalsTo_cons]
    split
    next haddress =>
      rw [show proposalsTo a g [] = [] from rfl, List.append_nil]
      exact leads_proposals judge first.address a _ s u haddress.symm
    next => trivial

/-- A proposal is made to the live value of its group. -/
theorem group_old {r : Round} (hr : r ∈ rounds) {p : Proposal} (hp : p ∈ r.proposals) :
    p.old.value.group = p.value.group := by
  induction h with
  | done => cases hr
  | round config u hq h ih =>
    rcases List.mem_cons.1 hr with rfl | hr
    · exact group_old_of_mem judge hp
    · exact ih hr

/-- A round is for the cells of the queue that it names. In it the values of the configuration are
proposed, but with the live mode. -/
theorem named {r : Round} (hr : r ∈ rounds) :
    ∃ q, s.queues.get? r.config.location.queue = some q ∧ r.address = q.address ∧
      r.proposals.map (·.value) = targets (s.mode q.address) r.config.settings := by
  induction h with
  | done => cases hr
  | @round s _ first _ config u hq h ih =>
    rcases List.mem_cons.1 hr with rfl | hr
    · exact ⟨first, hq, rfl, map_value_give s first.address config u⟩
    · obtain ⟨q', hq', haddress, hvalues⟩ := ih hr
      -- the queue was there before the first round, with the same cells
      have hthere : s.queues.contains r.config.location.queue = true := by
        rw [← contains_give judge s first.address config u, Dict.contains, hq']
        rfl
      obtain ⟨q, hq⟩ := Option.isSome_iff_exists.1 hthere
      obtain ⟨q₁, hq₁, hstays, -⟩ := sees_give judge hq first.address config u
      cases hq'.symm.trans hq₁
      rw [hstays.address] at haddress hvalues
      exact ⟨q, hq, haddress, hvalues.trans (by rw [mode_give])⟩

end Course

/-- The values of a group do not depend on the mode, but for the processing settings. -/
theorem value_withMode (s : Service A ω) (new : QueueSettings) {g : Group} {a b : Addresses}
    (h : b g = a g) : (new.withMode (s.mode b)).value g = (new.withMode (s.mode a)).value g := by
  cases g with
  | processing => rw [mode_congr h]
  | _ => rfl

end Service

/-! ### What becomes of a queue -/

/-- Nobody else who is named holds one of the cells of a queue. -/
def Apart (rounds : List Round) (q : LiveQueue A ω) : Prop :=
  ∀ r ∈ rounds, r.config.location.queue ≠ q.queue → ∀ g, r.address g ≠ q.address g

instance (rounds : List Round) (q : LiveQueue A ω) : Decidable (Apart rounds q) :=
  inferInstanceAs (Decidable (∀ r ∈ rounds, r.config.location.queue ≠ q.queue →
    ∀ g, r.address g ≠ q.address g))

/-- What becomes of a queue of a service that goes through some rounds. -/
structure Reconfigured (rounds : List Round) (q q' : LiveQueue A ω) : Prop where
  stays : q.Stays q'
  /-- A group goes by what was proposed to its cell, whatever comes of the other groups. -/
  live : ∀ g, q'.live g = (q.live g).follow (proposalsTo q.address g rounds)
  /-- When the proposals to the cell of a group are accepted, it has the value of the last
  configuration that has come to this cell. -/
  groupAccepted : ∀ g, (∀ p ∈ proposalsTo q.address g rounds, p.accepted = true) →
    ∀ last, (roundsTo q.address g rounds).getLast? = some last →
      q'.settings.value g = (last.config.settings.withMode q.settings.processing.mode).value g
  /-- When the proposals to the cell of a group are refused, it has its old value and version. -/
  groupRefused : ∀ g, (∀ p ∈ proposalsTo q.address g rounds, p.accepted = false) →
    q'.live g = q.live g
  /-- When nobody else who is named holds one of the cells and all proposals are accepted, the
  settings are those of the last configuration for the queue. -/
  accepted : Apart rounds q → (∀ g, ∀ p ∈ proposalsTo q.address g rounds, p.accepted = true) →
    ∀ last, (roundsOf q.queue rounds).getLast? = some last →
      q'.settings = last.config.settings.withMode q.settings.processing.mode
  mode : q'.settings.processing.mode = q.settings.processing.mode
  /-- A queue none of whose cells is held by a queue that is named stays as it is. -/
  untouched : (∀ r ∈ rounds, ∀ g, r.address g ≠ q.address g) → q' = q

namespace Service.Course

variable {s s' : Service A ω} {name : QueueId} {q q' : LiveQueue A ω} {rounds : List Round}

/-- The cells of a queue that stays are those of its address. -/
theorem live_of_get? (h : Course judge s rounds s') (hq : s.queues.get? name = some q)
    (hq' : s'.queues.get? name = some q') (hstays : q.Stays q') (g : Group) :
    q'.live g = (q.live g).follow (proposalsTo q.address g rounds) := by
  obtain ⟨-, -, hcells⟩ := entry_of_get? hq
  obtain ⟨-, -, hcells'⟩ := entry_of_get? hq'
  rw [hcells', hcells, hstays.address, h.live]

/-- Among the proposals of a round there is one for each group. -/
theorem proposal (h : Course judge s rounds s') {r : Round} (hr : r ∈ rounds) (g : Group) :
    ∃ p, r.proposals.filter (fun p => p.value.group = g) = [p] ∧
      p.value = (r.config.settings.withMode (s.mode r.address)).value g := by
  obtain ⟨q, -, haddress, hproposed⟩ := h.named hr
  have hvalues : (r.proposals.filter fun p => p.value.group = g).map (·.value) =
      [(r.config.settings.withMode (s.mode r.address)).value g] := by
    rw [← QueueSettings.filter_map_value, ← targets_eq, haddress, ← hproposed, List.filter_map]
    rfl
  obtain ⟨p, hp, hvalue⟩ := List.map_eq_singleton_iff.1 hvalues
  exact ⟨p, hp, hvalue⟩

/-- The last proposal to a cell is the value of the last configuration that has come to it. -/
theorem getLast?_proposalsTo (h : Course judge s rounds s') {a : Addresses} {g : Group}
    {last : Round} (hlast : (roundsTo a g rounds).getLast? = some last) :
    ∃ p, p.value = (last.config.settings.withMode (s.mode last.address)).value g ∧
      (proposalsTo a g rounds).getLast? = some p := by
  have hmem := List.mem_of_getLast? hlast
  obtain ⟨p, hp, hvalue⟩ := h.proposal (List.mem_filter.1 hmem).1 g
  refine ⟨p, hvalue, ?_⟩
  obtain ⟨before, hbefore⟩ := List.getLast?_eq_some_iff.1 hlast
  rw [proposalsTo, hbefore, List.flatMap_append, List.flatMap_singleton, hp,
    List.getLast?_append]
  rfl

/-- When nobody else who is named holds one of the cells, the rounds that come to a cell are those
for the queue. -/
theorem roundsTo_eq (h : Course judge s rounds s') (hq : s.queues.get? name = some q)
    (hapart : Apart rounds q) (g : Group) :
    roundsTo q.address g rounds = roundsOf q.queue rounds := by
  refine List.filter_congr fun r hr => ?_
  by_cases hname : r.config.location.queue = q.queue
  · obtain ⟨-, hqueue, -⟩ := entry_of_get? hq
    obtain ⟨named, hnamed, haddress, -⟩ := h.named hr
    rw [hname, hqueue, hq] at hnamed
    cases hnamed
    simp [hname, haddress]
  · simp [hname, hapart r hr hname g]

/-- **A queue goes by the configurations that come to its cells.** -/
theorem reconfigured (h : Course judge s rounds s') (hq : s.queues.get? name = some q) :
    ∃ q', s'.queues.get? name = some q' ∧ Reconfigured rounds q q' := by
  obtain ⟨q', hq', hstays, hsame⟩ := h.queue hq
  have hlive := h.live_of_get? hq hq' hstays
  have haccepted : ∀ g, (∀ p ∈ proposalsTo q.address g rounds, p.accepted = true) →
      ∀ last, (roundsTo q.address g rounds).getLast? = some last →
        q'.settings.value g =
          (last.config.settings.withMode q.settings.processing.mode).value g := by
    intro g hall last hlast
    obtain ⟨p, hvalue, hproposed⟩ := h.getLast?_proposalsTo hlast
    have hyes := hall p (List.mem_of_getLast? hproposed)
    have haddress : last.address g = q.address g := by
      simpa using (List.mem_filter.1 (List.mem_of_getLast? hlast)).2
    rw [← LiveSettings.value_live, hlive, LiveValue.value_follow_last hproposed hyes, hvalue,
      value_withMode s _ haddress, mode_of_get? hq]
  refine ⟨q', hq', hstays, hlive, haccepted, fun g hall => ?_, fun hapart hall last hlast => ?_, ?_,
    hsame⟩
  · rw [hlive, LiveValue.follow_refused hall]
  · refine QueueSettings.ext_value fun g => haccepted g (hall g) last ?_
    rw [h.roundsTo_eq hq hapart, hlast]
  · rw [← mode_of_get? hq, ← mode_of_get? hq', hstays.address, h.mode]

end Service.Course

/-! ### The rounds of an update -/

namespace Service

/-- The rounds of an update, one for each configuration that names a queue in service. The values of
a configuration are read when it is its turn. -/
def rounds (judge : Judge ω υ) : List GivenConfig → Service A ω → υ → List Round
  | [], _, _ => []
  | c :: cs, s, u =>
    match s.queues.get? c.location.queue with
    | none => rounds judge cs s u
    | some q =>
      let (r, s, u) := s.give judge q.address ⟨c.location, s.cells.read c.settings⟩ u
      r :: rounds judge cs s u

variable {s : Service A ω} {q : LiveQueue A ω} {c : GivenConfig} {cs : List GivenConfig}
  {changes : Changes} {u : υ}

theorem applyConfigs_of_none (h : s.queues.get? c.location.queue = none) :
    applyConfigs judge (c :: cs) s changes u = applyConfigs judge cs s changes u := by
  rw [get?_queues, Option.map_eq_none_iff] at h
  rw [applyConfigs, applyConfig, h]

theorem rounds_of_none (h : s.queues.get? c.location.queue = none) :
    rounds judge (c :: cs) s u = rounds judge cs s u := by
  rw [rounds, h]

/-- The round that a configuration makes for the queue that it names. -/
def giveTo (judge : Judge ω υ) (s : Service A ω) (q : LiveQueue A ω) (c : GivenConfig) (u : υ) :
    Round × Service A ω × υ :=
  s.give judge q.address ⟨c.location, s.cells.read c.settings⟩ u

theorem applyConfigs_of_some (h : s.queues.get? c.location.queue = some q) :
    applyConfigs judge (c :: cs) s changes u =
      applyConfigs judge cs (s.giveTo judge q c u).2.1
        (if (s.giveTo judge q c u).1.report = "" then changes
          else changes.insert c.location.queue (s.giveTo judge q c u).1.report)
        (s.giveTo judge q c u).2.2 := by
  obtain ⟨he, -, -⟩ := entry_of_get? h
  have happly := apply_eq_give judge s q.address ⟨c.location, s.cells.read c.settings⟩ u
  rw [applyConfigs, applyConfig, he]
  simp only at happly ⊢
  rw [happly]
  rfl

theorem rounds_of_some (h : s.queues.get? c.location.queue = some q) :
    rounds judge (c :: cs) s u =
      (s.giveTo judge q c u).1 ::
        rounds judge cs (s.giveTo judge q c u).2.1 (s.giveTo judge q c u).2.2 := by
  rw [rounds, h]
  rfl

/-- An update goes through its rounds. -/
theorem course_applyConfigs (judge : Judge ω υ) (configs : List GivenConfig) (s : Service A ω)
    (changes : Changes) (u : υ) :
    Course judge s (s.rounds judge configs u) (applyConfigs judge configs s changes u).1 := by
  induction configs generalizing s changes u with
  | nil => exact .done s
  | cons c cs ih =>
    cases hc : s.queues.get? c.location.queue with
    | none =>
      rw [applyConfigs_of_none hc, rounds_of_none hc]
      exact ih s changes u
    | some q =>
      rw [applyConfigs_of_some hc, rounds_of_some hc]
      exact .round ⟨c.location, s.cells.read c.settings⟩ u hc (ih _ _ _)

/-- All configurations name registered queues. -/
def AllRegistered (s : Service A ω) (configs : List GivenConfig) : Prop :=
  ∀ c ∈ configs, s.queues.contains c.location.queue = true

theorem AllRegistered.of_cons (judge : Judge ω υ) (u : υ) (h : s.AllRegistered (c :: cs)) :
    ∃ q, s.queues.get? c.location.queue = some q ∧
      (s.giveTo judge q c u).2.1.AllRegistered cs := by
  obtain ⟨q, hq⟩ := Option.isSome_iff_exists.1 (h c List.mem_cons_self)
  refine ⟨q, hq, fun c' hc' => ?_⟩
  rw [giveTo, contains_give]
  exact h c' (List.mem_cons_of_mem c hc')

/-- There is a round for every configuration. -/
theorem map_location_rounds (judge : Judge ω υ) {configs : List GivenConfig}
    (h : s.AllRegistered configs) (u : υ) :
    (s.rounds judge configs u).map (·.config.location) = configs.map (·.location) := by
  induction configs generalizing s u with
  | nil => rfl
  | cons c cs ih =>
    obtain ⟨q, hq, hrest⟩ := h.of_cons judge u
    rw [rounds_of_some hq, List.map_cons, List.map_cons, ih hrest]
    rfl

/-- What a configuration shows is what its settings show after the configurations before it. -/
theorem read_rounds {configs before after : List GivenConfig} (h : s.AllRegistered configs)
    (hconfigs : configs = before ++ c :: after) (changes : Changes) (u : υ) :
    (s.rounds judge configs u)[before.length]?.map (·.config) =
      some ⟨c.location, (applyConfigs judge before s changes u).1.cells.read c.settings⟩ := by
  subst hconfigs
  induction before generalizing s changes u with
  | nil =>
    obtain ⟨q, hq, -⟩ := h.of_cons judge u
    rw [List.nil_append, rounds_of_some hq]
    rfl
  | cons first before ih =>
    obtain ⟨q, hq, hrest⟩ := h.of_cons judge u
    rw [List.cons_append, rounds_of_some hq, applyConfigs_of_some hq, List.length_cons,
      List.getElem?_cons_succ]
    exact ih _ _ hrest

/-- Configurations by their values are given as they are. -/
theorem map_config_rounds (judge : Judge ω υ) {configs : List QueueConfig}
    (h : s.AllRegistered (configs.map QueueConfig.given)) (u : υ) :
    (s.rounds judge (configs.map QueueConfig.given) u).map (·.config) = configs := by
  induction configs generalizing s u with
  | nil => rfl
  | cons c cs ih =>
    obtain ⟨q, hq, hrest⟩ := AllRegistered.of_cons judge u h
    rw [List.map_cons, rounds_of_some hq, List.map_cons, ih hrest]
    rfl

/-! ### Updates -/

/-- What an update of registered queues comes to. -/
structure Updated (judge : Judge ω υ) (s : Service A ω) (configs : List GivenConfig) (u : υ)
    (s' : Service A ω) : Prop where
  shards : s'.shards = s.shards
  /-- No queue comes or goes. -/
  contains : ∀ queue, s'.queues.contains queue = s.queues.contains queue
  /-- There is one round for each configuration, in the order of the list. -/
  listed : (s.rounds judge configs u).map (·.config.location) = configs.map (·.location)
  /-- What a configuration shows is what its settings show after the configurations before it. -/
  read : ∀ before c after, configs = before ++ c :: after →
    (s.rounds judge configs u)[before.length]?.map (·.config) =
      some ⟨c.location, (applyConfigs judge before s .empty u).1.cells.read c.settings⟩
  /-- A round is for the cells of the queue that it names. It proposes the values of its
  configuration, but with the live mode. -/
  proposed : ∀ r ∈ s.rounds judge configs u, ∃ q,
    s.queues.get? r.config.location.queue = some q ∧ r.address = q.address ∧
      r.proposals.map (·.value) =
        Group.all.map (r.config.settings.withMode q.settings.processing.mode).value
  queues : ∀ queue q, s.queues.get? queue = some q → ∃ q', s'.queues.get? queue = some q' ∧
    Reconfigured (s.rounds judge configs u) q q'

theorem update_of_registered (judge : Judge ω υ) {configs : List GivenConfig}
    (h : s.AllRegistered configs) (u : υ) :
    s.update judge configs u =
      (.ok (applyConfigs judge configs s .empty u).2.1, (applyConfigs judge configs s .empty u).1,
        (applyConfigs judge configs s .empty u).2.2) := by
  have hnone : configs.find? (fun c => !s.entries.contains c.location.queue) = none := by
    rw [List.find?_eq_none]
    simpa [AllRegistered] using h
  rw [update, hnone]

/-- **Updates are exact, or nothing happens.** When a configuration names a queue that is not
registered, the first such configuration is the error, nothing changes and nobody is asked. When all
queues are registered, the configurations come to the cells of the queues that they name, and every
queue goes by what has come to its cells. -/
theorem update_is_exact (judge : Judge ω υ) (s : Service A ω) (configs : List GivenConfig) (u : υ) :
    (∀ before c after, configs = before ++ c :: after →
      (∀ c' ∈ before, s.queues.contains c'.location.queue = true) →
      s.queues.contains c.location.queue = false →
      s.update judge configs u = (.error (.queueNotRegistered c.location.queue), s, u)) ∧
    ((∀ c ∈ configs, s.queues.contains c.location.queue = true) →
      ∃ changes s' u', s.update judge configs u = (.ok changes, s', u') ∧
        Updated judge s configs u s') := by
  constructor
  · intro before c after hconfigs hbefore hc
    have hfirst : configs.find? (fun c => !s.entries.contains c.location.queue) = some c := by
      rw [List.find?_eq_some_iff_append]
      exact ⟨by simpa using hc, before, after, hconfigs, by simpa using hbefore⟩
    rw [update, hfirst]
  · intro hall
    have hcourse := course_applyConfigs judge configs s .empty u
    refine ⟨_, _, _, update_of_registered judge hall u, hcourse.shards, hcourse.contains,
      map_location_rounds judge hall u, fun _ _ _ hconfigs => read_rounds hall hconfigs .empty u,
      fun r hr => ?_, fun queue q hq => hcourse.reconfigured hq⟩
    obtain ⟨q, hq, haddress, hproposed⟩ := hcourse.named hr
    rw [mode_of_get? hq] at hproposed
    exact ⟨q, hq, haddress, hproposed⟩

/-- Two queues with settings of their own; somebody observes the poll settings of the second one. -/
def observedPair : Service ⟨Unit, fun _ => Unit⟩ Unit :=
  (((new ["main"]).addNew ⟨.of "mail" "tasks", {}⟩).addNew ⟨.of "orders" "tasks", {}⟩).modify
    "orders" fun q => q.observe .poll ()

/-- Every change is refused. -/
def refusing : Judge Unit Unit := fun _ _ _ u => (.error (.rejected "poll" "not now"), u)

/-- Configurations that name the second queue twice, with other modes, and the first one between. -/
def rewritten : List GivenConfig :=
  [⟨.of "orders" "tasks", .values
      { poll := { noTask := .ofSeconds 5 }, failure := { retryInterval := .ofSeconds 9 } }⟩,
    ⟨.of "mail" "tasks", .values { poll := { noTask := .ofSeconds 5 } }⟩,
    ⟨.of "orders" "tasks", .values
      { processing := { threadCount := .clamp 4, mode := .wrapInTransaction }
        poll := { noTask := .ofSeconds 7 } }⟩]

/-- The poll settings of the second queue stay, because every change of them is refused. Its other
groups and the other queue are changed, but no mode is. An unknown queue at the end of the list
would have prevented all of this. -/
theorem refused_group_stays :
    observedPair.update refusing (rewritten ++ [⟨.of "lost" "tasks", .values {}⟩]) ()
      = (.error (.queueNotRegistered "lost"), observedPair, ()) ∧
    (∀ c ∈ rewritten, observedPair.queues.contains c.location.queue = true) ∧
    ∃ changes s' u' mail orders, observedPair.update refusing rewritten () = (.ok changes, s', u') ∧
      s'.queues.get? "mail" = some mail ∧ s'.queues.get? "orders" = some orders ∧
      mail.settings = { poll := { noTask := .ofSeconds 5 } } ∧
      orders.live .poll = ⟨.poll {}, 0⟩ ∧
      orders.live .failure = ⟨.failure {}, 2⟩ ∧
      orders.live .processing = ⟨.processing { threadCount := .clamp 4 }, 1⟩ := by
  have hregistered : ∀ c ∈ rewritten, observedPair.queues.contains c.location.queue = true := by
    decide
  obtain ⟨-, hexact⟩ := update_is_exact refusing observedPair rewritten ()
  obtain ⟨hunknown, -⟩ := update_is_exact refusing observedPair
    (rewritten ++ [⟨.of "lost" "tasks", .values {}⟩]) ()
  obtain ⟨changes, s', u', hupdate, hupdated⟩ := hexact hregistered
  obtain ⟨mail, hmail, hfirst⟩ := hupdated.queues "mail" _ rfl
  obtain ⟨orders, horders, hsecond⟩ := hupdated.queues "orders" _ rfl
  refine ⟨hunknown _ _ [] rfl hregistered rfl, hregistered, changes, s', u', mail, orders, hupdate,
    hmail, horders, ?_, ?_, ?_, ?_⟩
  · exact hfirst.accepted (by decide) (by decide) _ rfl
  · exact hsecond.groupRefused .poll (by decide)
  · exact (hsecond.live .failure).trans rfl
  · exact (hsecond.live .processing).trans rfl

/-- A service without queues; somebody has made settings. -/
def readied : Service ⟨Unit, fun _ => Unit⟩ Unit where
  shards := ["main"]
  cells := (Cells.create {} {}).2

/-- Two queues with the same settings. -/
def twins : Service ⟨Unit, fun _ => Unit⟩ Unit :=
  ((readied.enroll (.of "mail" "tasks") (fun _ => 0) fun _ => false).2.enroll
    (.of "orders" "tasks") (fun _ => 0) fun _ => false).2

/-- Poll settings with a time. -/
def paced (seconds : Nat) : QueueSettings := { poll := { noTask := .ofSeconds seconds } }

/-- A queue that is not named is changed with one that is. When it is named before, it does not have
the settings that were listed for it. -/
theorem unnamed_queue_is_changed :
    ∃ s' u' s'' u'' changes changes' before after last,
      twins.update refusing [⟨.of "mail" "tasks", .values (paced 5)⟩] () = (.ok changes, s', u') ∧
      twins.queues.get? "orders" = some before ∧ s'.queues.get? "orders" = some after ∧
      before.live .poll = ⟨.poll {}, 0⟩ ∧
      after.live .poll = ⟨.poll { noTask := .ofSeconds 5 }, 1⟩ ∧
      twins.update refusing [⟨.of "orders" "tasks", .values (paced 7)⟩,
        ⟨.of "mail" "tasks", .values (paced 5)⟩] () = (.ok changes', s'', u'') ∧
      s''.queues.get? "orders" = some last ∧
      last.settings.poll ≠ (paced 7).poll := by
  refine ⟨_, _, _, _, _, _, _, _, _, rfl, rfl, rfl, rfl, rfl, rfl, rfl, ?_⟩
  decide

end Service

end DurableQueue
