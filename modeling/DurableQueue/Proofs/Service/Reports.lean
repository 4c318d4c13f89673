import DurableQueue.Proofs.Service.Reconfiguration

/-!
# Reports of updates

An update of a service returns a report for each queue that it names and whose cells it has changed.
The report of one configuration has a summary for each group that it has changed; of several
configurations for one queue the last one that has changed something is reported, and no other.

* `Names` says that a report names a group;
* `LiveQueue.changed` are the groups of a queue that were changed between two moments, and
  `LiveQueue.report` is the report that names all of them (`LiveQueue.names_report`);
* `Reported` says what the report for a queue is, after some rounds (`Course.reported`);
* `changes_are_reported` is the main statement about updates, and `earlier_change_is_hidden` shows
  what becomes of the report when a queue is named twice.
-/

namespace DurableQueue

variable {A : Signature} {ω υ : Type} {judge : Judge ω υ}

/-! ### Texts -/

/-- A part of a joined text stands in it. -/
theorem infix_intercalate {s t : String} {ts : List String} (h : t ∈ ts) :
    t.toList <:+: (s.intercalate ts).toList := by
  induction ts with
  | nil => cases h
  | cons t' ts ih =>
    by_cases hts : ts = []
    · subst hts
      exact ⟨[], [], by simp [List.mem_singleton.1 h]⟩
    · rw [String.intercalate_cons_of_ne_nil hts, String.toList_append, String.toList_append]
      rcases List.mem_cons.1 h with rfl | h
      · exact ⟨[], s.toList ++ (s.intercalate ts).toList, by simp⟩
      · obtain ⟨before, after, heq⟩ := ih h
        exact ⟨t'.toList ++ s.toList ++ before, after, by simp [← heq]⟩

/-- A report names a group when the name stands in it with the bracket of a summary. -/
def Names (report : String) (g : Group) : Prop := (g.name ++ "(").toList <:+: report.toList

instance (report : String) (g : Group) : Decidable (Names report g) :=
  inferInstanceAs (Decidable ((g.name ++ "(").toList <:+: report.toList))

theorem infix_summary {α : Type} [SettingGroup α] (old new : α) :
    (SettingGroup.groupName α ++ "(").toList <:+: (SettingGroup.summary old new).toList := by
  refine ⟨[], (String.intercalate "," (SettingGroup.differences old new) ++ ")").toList, ?_⟩
  simp [SettingGroup.summary]

/-- A summary names its group. -/
theorem names_summary {v v' : GroupValue} (h : v'.group = v.group) :
    Names (v.summary v') v.group := by
  cases v with
  | processing v =>
    cases v' with
    | processing v' => exact infix_summary v v'
    | _ => cases h
  | poll v =>
    cases v' with
    | poll v' => exact infix_summary v v'
    | _ => cases h
  | failure v =>
    cases v' with
    | failure v' => exact infix_summary v v'
    | _ => cases h
  | reenqueue v =>
    cases v' with
    | reenqueue v' => exact infix_summary v v'
    | _ => cases h
  | ext v =>
    cases v' with
    | ext v' => exact infix_summary v v'
    | _ => cases h

theorem Names.ne_empty {report : String} {g : Group} (h : Names report g) : report ≠ "" := by
  rintro rfl
  have hnil := List.infix_nil.1 h
  simp at hnil

/-! ### The report of a round -/

namespace LiveQueue

/-- The groups that were changed between two moments. -/
def changed (q q' : LiveQueue A ω) : List Group :=
  Group.all.filter fun g => (q'.live g).version ≠ (q.live g).version

/-- The report that has a summary for each group that was changed between two moments. -/
def report (q q' : LiveQueue A ω) : String :=
  String.intercalate "," ((q.changed q').map fun g => (q.live g).value.summary (q'.live g).value)

variable {q q' : LiveQueue A ω}

theorem mem_changed {g : Group} :
    g ∈ q.changed q' ↔ (q'.live g).version ≠ (q.live g).version := by
  rw [changed, List.mem_filter, decide_eq_true_eq]
  exact and_iff_right (by cases g <;> decide)

theorem names_report {g : Group} (h : g ∈ q.changed q') : Names (q.report q') g := by
  have hsummary : Names ((q.live g).value.summary (q'.live g).value) (q.live g).value.group :=
    names_summary (by rw [LiveSettings.group_live, LiveSettings.group_live])
  rw [LiveSettings.group_live] at hsummary
  exact hsummary.trans (infix_intercalate (List.mem_map_of_mem h))

theorem report_eq_empty_iff : q.report q' = "" ↔ q.changed q' = [] := by
  constructor
  · intro hempty
    rw [List.eq_nil_iff_forall_not_mem]
    exact fun g hg => (names_report hg).ne_empty hempty
  · intro hnone
    rw [report, hnone]
    rfl

theorem report_live_eq_empty_iff (g : Group) :
    (q.live g).report (q'.live g) = "" ↔ (q'.live g).version = (q.live g).version := by
  by_cases h : (q'.live g).version = (q.live g).version
  · exact iff_of_true (LiveValue.report_of_eq h) h
  · rw [LiveValue.report_of_ne h]
    refine iff_of_false (Names.ne_empty (g := (q.live g).value.group) (names_summary ?_)) h
    rw [LiveSettings.group_live, LiveSettings.group_live]

end LiveQueue

/-- The reports of the rounds that have changed something. -/
def reportsOf (rounds : List Round) : List String := (rounds.map Round.report).filter (· ≠ "")

theorem reportsOf_cons (r : Round) (rounds : List Round) :
    reportsOf (r :: rounds) =
      if r.report = "" then reportsOf rounds else r.report :: reportsOf rounds := by
  simp [reportsOf, List.filter_cons]

theorem roundsOf_cons (queue : QueueId) (r : Round) (rounds : List Round) :
    roundsOf queue (r :: rounds) =
      if r.config.location.queue = queue then r :: roundsOf queue rounds
      else roundsOf queue rounds := by
  simp [roundsOf, List.filter_cons]

theorem reportsOf_ne_nil_iff {rounds : List Round} :
    reportsOf rounds ≠ [] ↔ ∃ r ∈ rounds, r.report ≠ "" := by
  simp [reportsOf]

/-! ### The report of one round -/

/-- A proposal that has changed its group has a summary that names the group. -/
theorem Proposal.names_summary {p : Proposal} (hgroup : p.old.value.group = p.value.group)
    (hp : p.Changes) : Names p.summary p.value.group := by
  have hresult : p.result.value.group = p.old.value.group := by
    rcases LiveValue.value_receive p.old p.value p.accepted with h | h
    · rw [result, h]
    · rw [result, h, hgroup]
  rw [summary, LiveValue.report_of_ne hp, ← hgroup]
  exact DurableQueue.names_summary hresult

theorem Proposal.summary_ne_empty_iff {p : Proposal}
    (hgroup : p.old.value.group = p.value.group) : p.summary ≠ "" ↔ p.Changes := by
  by_cases hp : p.Changes
  · exact iff_of_true (p.names_summary hgroup hp).ne_empty hp
  · refine iff_of_false (fun hne => hne (LiveValue.report_of_eq ?_)) hp
    exact Decidable.not_not.1 hp

namespace Round

variable {r : Round} (hgroup : ∀ p ∈ r.proposals, p.old.value.group = p.value.group)

include hgroup

/-- A round is reported with every group that it has changed. -/
theorem names_report {p : Proposal} (hp : p ∈ r.proposals) (hchanges : p.Changes) :
    Names r.report p.value.group := by
  have hsummary := p.names_summary (hgroup p hp) hchanges
  refine hsummary.trans (infix_intercalate (List.mem_filter.2 ⟨List.mem_map_of_mem hp, ?_⟩))
  simpa using hsummary.ne_empty

theorem report_ne_empty_iff : r.report ≠ "" ↔ ∃ p ∈ r.proposals, p.Changes := by
  constructor
  · intro hne
    by_cases hsome : ∃ p ∈ r.proposals, p.Changes
    · exact hsome
    refine absurd ?_ hne
    have hempty : (r.proposals.map (·.summary)).filter (· ≠ "") = [] := by
      rw [List.filter_eq_nil_iff]
      intro text htext
      obtain ⟨p, hp, rfl⟩ := List.mem_map.1 htext
      have hsame := mt (Proposal.summary_ne_empty_iff (hgroup p hp)).1
        fun hchanges => hsome ⟨p, hp, hchanges⟩
      simpa using hsame
    rw [report, hempty]
    rfl
  · rintro ⟨p, hp, hchanges⟩
    exact (names_report hgroup hp hchanges).ne_empty

end Round

/-! ### Reports of several rounds -/

/-- What the report for a queue is, after some configurations for it and all rounds. -/
structure Reported (configs : List GivenConfig) (rounds : List Round) (q q' : LiveQueue A ω)
    (entry : Option String) : Prop where
  /-- There is a report exactly when a configuration for the queue has changed something. -/
  isSome_iff : entry.isSome = true ↔ ∃ r ∈ roundsOf q.queue rounds, ∃ p ∈ r.proposals, p.Changes
  /-- Of several rounds the last one that has changed something is reported. -/
  last : entry = (reportsOf (roundsOf q.queue rounds)).getLast?
  /-- A round is reported with every group that it has changed. -/
  groups : ∀ r ∈ rounds, ∀ p ∈ r.proposals, p.Changes → Names r.report p.value.group
  /-- A version has grown exactly when some proposal to the cell has changed it. -/
  grown_iff : ∀ g, (q.live g).version < (q'.live g).version ↔
    ∃ p ∈ proposalsTo q.address g rounds, p.Changes
  /-- When nobody else who is named holds one of the cells, there is a report exactly when some
  version has grown. -/
  isSome_iff_grown : Apart rounds q →
    (entry.isSome = true ↔ ∃ g, (q.live g).version < (q'.live g).version)
  /-- Then one round is reported with every group that was changed. -/
  once : Apart rounds q → configs.length ≤ 1 →
    entry = if q.changed q' = [] then none else some (q.report q')
  names : Apart rounds q → configs.length ≤ 1 → ∀ report g, entry = some report →
    (q.live g).version < (q'.live g).version → Names report g

namespace Service

variable {s s' : Service A ω} {name : QueueId} {q q' : LiveQueue A ω} {rounds : List Round}

namespace Course

variable (h : Course judge s rounds s') (hq : s.queues.get? name = some q)
  (hq' : s'.queues.get? name = some q') (hstays : q.Stays q')

include h hq hq' hstays

/-- A version has grown exactly when some proposal to the cell has changed it. -/
theorem version_lt_iff (g : Group) :
    (q.live g).version < (q'.live g).version ↔
      ∃ p ∈ proposalsTo q.address g rounds, p.Changes := by
  have hleads := h.leads q.address g
  obtain ⟨-, -, hcells⟩ := entry_of_get? hq
  rw [← hcells] at hleads
  rw [h.live_of_get? hq hq' hstays, hleads.version_lt_iff]

/-- No group was changed exactly when no version has grown. -/
theorem changed_eq_nil_iff :
    q.changed q' = [] ↔ ¬ ∃ g, (q.live g).version < (q'.live g).version := by
  have hle : ∀ g, (q.live g).version ≤ (q'.live g).version := fun g => by
    rw [h.live_of_get? hq hq' hstays]
    exact LiveValue.version_le_follow ..
  rw [List.eq_nil_iff_forall_not_mem, not_exists]
  refine forall_congr' fun g => not_congr ?_
  rw [LiveQueue.mem_changed]
  exact ⟨fun hne => Nat.lt_of_le_of_ne (hle g) (Ne.symm hne), fun hlt => Nat.ne_of_gt hlt⟩

/-- When nobody else who is named holds one of the cells, a version has grown exactly when a round
for the queue has changed something. -/
theorem exists_version_lt_iff (hapart : Apart rounds q) :
    (∃ g, (q.live g).version < (q'.live g).version) ↔
      ∃ r ∈ roundsOf q.queue rounds, ∃ p ∈ r.proposals, p.Changes := by
  have hmem : ∀ g p, p ∈ proposalsTo q.address g rounds ↔
      ∃ r ∈ roundsOf q.queue rounds, p ∈ r.proposals ∧ p.value.group = g := fun g p => by
    rw [mem_proposalsTo, h.roundsTo_eq hq hapart]
  constructor
  · rintro ⟨g, hgrown⟩
    obtain ⟨p, hp, hchanges⟩ := (h.version_lt_iff hq hq' hstays g).1 hgrown
    obtain ⟨r, hr, hp, -⟩ := (hmem g p).1 hp
    exact ⟨r, hr, p, hp, hchanges⟩
  · rintro ⟨r, hr, p, hp, hchanges⟩
    exact ⟨p.value.group, (h.version_lt_iff hq hq' hstays _).2
      ⟨p, (hmem _ p).2 ⟨r, hr, hp, rfl⟩, hchanges⟩⟩

/-- When nobody else who is named holds one of the cells, a single round for the queue is reported
with every group that was changed. -/
theorem report_of_once (hapart : Apart rounds q) {r : Round}
    (honce : roundsOf q.queue rounds = [r]) : r.report = q.report q' := by
  have hr : r ∈ rounds := by
    have hmem : r ∈ roundsOf q.queue rounds := by rw [honce]; exact List.mem_singleton_self r
    exact (List.mem_filter.1 hmem).1
  -- the round makes the only proposal to each cell
  have hsummary : ∀ p ∈ r.proposals,
      p.summary = (q.live p.value.group).report (q'.live p.value.group) := by
    intro p hp
    obtain ⟨p', hp', -⟩ := h.proposal hr p.value.group
    have hlist : proposalsTo q.address p.value.group rounds = [p'] := by
      rw [proposalsTo, h.roundsTo_eq hq hapart, honce, List.flatMap_singleton, hp']
    have hmem : p ∈ r.proposals.filter fun p' => p'.value.group = p.value.group :=
      List.mem_filter.2 ⟨hp, by simp⟩
    rw [hp', List.mem_singleton] at hmem
    subst hmem
    have hold := h.leads q.address p.value.group
    obtain ⟨-, -, hcells⟩ := entry_of_get? hq
    rw [hlist, ← hcells] at hold
    rw [h.live_of_get? hq hq' hstays, hlist, LiveValue.follow_cons, LiveValue.follow_nil,
      ← hold.1]
    rfl
  have hgroups : r.proposals.map (·.value.group) = Group.all := by
    obtain ⟨named, -, -, hvalues⟩ := h.named hr
    have hmap := congrArg (List.map GroupValue.group) hvalues
    rw [List.map_map] at hmap
    exact hmap
  have hsummaries : r.proposals.map (·.summary) =
      Group.all.map fun g => (q.live g).report (q'.live g) := by
    rw [← hgroups, List.map_map]
    exact List.map_congr_left hsummary
  have hchanged : Group.all.filter ((· ≠ "") ∘ fun g => (q.live g).report (q'.live g)) =
      q.changed q' := by
    refine List.filter_congr fun g _ => ?_
    simp [LiveQueue.report_live_eq_empty_iff]
  rw [Round.report, hsummaries, List.filter_map, hchanged, LiveQueue.report]
  refine congrArg (String.intercalate ",") (List.map_congr_left fun g hg => ?_)
  exact LiveValue.report_of_ne (LiveQueue.mem_changed.1 hg)

/-- **The report for a queue** is that of the last round for it that has changed something. -/
theorem reported {configs : List GivenConfig}
    (hlength : (roundsOf q.queue rounds).length = configs.length) :
    Reported configs rounds q q' (reportsOf (roundsOf q.queue rounds)).getLast? := by
  have hisSome : (reportsOf (roundsOf q.queue rounds)).getLast?.isSome = true ↔
      ∃ r ∈ roundsOf q.queue rounds, ∃ p ∈ r.proposals, p.Changes := by
    have hlast : (reportsOf (roundsOf q.queue rounds)).getLast?.isSome = true ↔
        reportsOf (roundsOf q.queue rounds) ≠ [] := by simp
    rw [hlast, reportsOf_ne_nil_iff]
    refine exists_congr fun r => and_congr_right fun hr => ?_
    exact r.report_ne_empty_iff fun p => h.group_old (List.mem_filter.1 hr).1
  have honce : Apart rounds q → configs.length ≤ 1 →
      (reportsOf (roundsOf q.queue rounds)).getLast? =
        if q.changed q' = [] then none else some (q.report q') := by
    intro hapart hle
    rw [← hlength] at hle
    cases hrounds : roundsOf q.queue rounds with
    | nil =>
      have hnone : q.changed q' = [] := by
        rw [changed_eq_nil_iff h hq hq' hstays, h.exists_version_lt_iff hq hq' hstays hapart,
          hrounds]
        simp
      rw [if_pos hnone]
      rfl
    | cons r rest =>
      rw [hrounds, List.length_cons] at hle
      obtain rfl : rest = [] := List.length_eq_zero_iff.1 (by omega)
      rw [reportsOf_cons, h.report_of_once hq hq' hstays hapart hrounds]
      simp only [LiveQueue.report_eq_empty_iff]
      split <;> rfl
  refine ⟨hisSome, rfl, fun r hr p hp => r.names_report (fun p => h.group_old hr) hp,
    h.version_lt_iff hq hq' hstays, fun hapart => ?_, honce,
    fun hapart hle report g hentry hgrown => ?_⟩
  · rw [hisSome, h.exists_version_lt_iff hq hq' hstays hapart]
  · have hg : g ∈ q.changed q' := LiveQueue.mem_changed.2 (Nat.ne_of_gt hgrown)
    rw [honce hapart hle, if_neg (List.ne_nil_of_mem hg)] at hentry
    cases hentry
    exact LiveQueue.names_report hg

end Course

/-- The last report for a queue is kept. -/
theorem get?_applyConfigs (judge : Judge ω υ) (configs : List GivenConfig) (s : Service A ω)
    (changes : Changes) (u : υ) (queue : QueueId) :
    (applyConfigs judge configs s changes u).2.1.get? queue =
      (reportsOf (roundsOf queue (s.rounds judge configs u))).getLast?.or (changes.get? queue) := by
  induction configs generalizing s changes u with
  | nil => rfl
  | cons c cs ih =>
    cases hc : s.queues.get? c.location.queue with
    | none => rw [applyConfigs_of_none hc, rounds_of_none hc, ih]
    | some q =>
      have hconfig : (s.giveTo judge q c u).1.config.location = c.location := rfl
      rw [applyConfigs_of_some hc, rounds_of_some hc, ih, roundsOf_cons, hconfig]
      by_cases hname : c.location.queue = queue
      · rw [if_pos hname, reportsOf_cons]
        -- an empty report is not kept, and any other one gives way to later ones
        split
        next => rfl
        next =>
          rw [Dict.get?_insert, if_pos hname.symm, List.getLast?_cons]
          cases (reportsOf _).getLast? <;> rfl
      · rw [if_neg hname]
        split
        next => rfl
        next => rw [Dict.get?_insert, if_neg (Ne.symm hname)]

/-- There are as many rounds for a queue as configurations that name it. -/
theorem length_roundsOf {configs : List GivenConfig} (h : s.AllRegistered configs) (u : υ)
    (queue : QueueId) :
    (roundsOf queue (s.rounds judge configs u)).length =
      (configs.filter fun c => c.location.queue = queue).length := by
  have hrounds := congrArg (List.filter fun l : Location => l.queue = queue)
    (map_location_rounds judge h u)
  rw [List.filter_map, List.filter_map] at hrounds
  have hlength := congrArg List.length hrounds
  rw [List.length_map, List.length_map] at hlength
  exact hlength

/-- **Changes are reported.** An update of registered queues has a report for a queue exactly when a
configuration that names the queue has changed one of its cells; if no other queue that is named
holds such a cell, this is when the queue has changed. If no other configuration names that queue
either, the report names every group that was changed. Else it is the report of the last
configuration for it that has changed something. -/
theorem changes_are_reported (judge : Judge ω υ) (s : Service A ω) (configs : List GivenConfig)
    (u : υ) (h : ∀ c ∈ configs, s.queues.contains c.location.queue = true) :
    ∃ changes s' u', s.update judge configs u = (.ok changes, s', u') ∧
      ∀ queue q, s.queues.get? queue = some q → ∃ q', s'.queues.get? queue = some q' ∧
        Reported (configs.filter fun c => c.location.queue = queue) (s.rounds judge configs u) q q'
          (changes.get? queue) := by
  refine ⟨_, _, _, update_of_registered judge h u, fun queue q hq => ?_⟩
  have hcourse := course_applyConfigs judge configs s .empty u
  obtain ⟨q', hq', hstays, -⟩ := hcourse.queue hq
  refine ⟨q', hq', ?_⟩
  obtain ⟨-, rfl, -⟩ := entry_of_get? hq
  rw [get?_applyConfigs, Dict.get?_empty, Option.or_none]
  exact hcourse.reported hq hq' hstays (length_roundsOf h u q.queue)

/-- The queue that is named once is reported with its change. The other one is named twice and is
reported with what the second configuration has changed. -/
theorem last_mention_is_reported :
    (∀ c ∈ rewritten, observedPair.queues.contains c.location.queue = true) ∧
    ∃ changes s' u', observedPair.update refusing rewritten () = (.ok changes, s', u') ∧
      changes.get? "mail" = some "poll(no_task_timeout=1s->5s)" ∧
      changes.get? "orders" =
        some "processing(thread_count=1->4),failure(retry_interval=9s->60s)" ∧
      ∃ orders, s'.queues.get? "orders" = some orders ∧ ∃ g, 0 < (orders.live g).version := by
  have hregistered : ∀ c ∈ rewritten, observedPair.queues.contains c.location.queue = true := by
    decide
  obtain ⟨changes, s', u', hupdate, hqueues⟩ :=
    changes_are_reported refusing observedPair rewritten () hregistered
  obtain ⟨mail, -, hmail⟩ := hqueues "mail" _ rfl
  obtain ⟨orders, horders, hreported⟩ := hqueues "orders" _ rfl
  have hentry : changes.get? "orders" =
      some "processing(thread_count=1->4),failure(retry_interval=9s->60s)" :=
    hreported.last.trans rfl
  obtain ⟨g, hgrown⟩ := (hreported.isSome_iff_grown (by decide)).1 (by rw [hentry]; rfl)
  exact ⟨hregistered, changes, s', u', hupdate, hmail.last.trans rfl, hentry, orders, horders, g,
    Nat.zero_lt_of_lt hgrown⟩

/-- The second configuration leaves the failure settings as the first one has set them. -/
def failureFirst : List GivenConfig :=
  [⟨.of "orders" "tasks", .values { failure := { retryInterval := .ofSeconds 9 } }⟩,
    ⟨.of "orders" "tasks", .values
      { processing := { threadCount := .clamp 4 }, failure := { retryInterval := .ofSeconds 9 } }⟩]

/-- A queue that is named twice is not reported with the group that only the first configuration has
changed. -/
theorem earlier_change_is_hidden :
    (∀ c ∈ failureFirst, observedPair.queues.contains c.location.queue = true) ∧
    ∃ changes s' before after,
      observedPair.update refusing failureFirst () = (.ok changes, s', ()) ∧
      observedPair.queues.get? "orders" = some before ∧ s'.queues.get? "orders" = some after ∧
      (before.live .failure).version < (after.live .failure).version ∧
      changes.get? "orders" = some "processing(thread_count=1->4)" ∧
      ¬ Names "processing(thread_count=1->4)" .failure := by
  refine ⟨by decide, _, _, _, _, rfl, rfl, rfl, by decide, rfl, ?_⟩
  simp only [Names, Group.name, SettingGroup.groupName, String.reduceAppend, String.reduceToList]
  decide

end Service

end DurableQueue
