import DurableQueue.Proofs.Service.Holders
import DurableQueue.Proofs.Settings.Updates

/-!
# Proposals

A configuration comes to the cells of a queue as proposals, one to each group of its settings. The
observers of a group accept a proposal or refuse it, and a group goes by the proposals to its cell
alone, whoever they were made to.

* `Cell.accepts` says whether the observers of a cell accept an update;
* `LiveValue` is the live value of a group with its version, and `LiveValue.receive` what a proposal
  makes of it: `Service.live_setGroup` for one proposal and `Service.live_offer` for several;
* `Service.give` gives a configuration to the cells of a queue as a round of proposals, and
  `Service.apply_eq_give` says that settings are applied in this way.
-/

namespace DurableQueue

variable {A : Signature} {ω υ σ : Type}

/-! ### The values of the groups -/

/-- What is said of every group can be decided group by group. -/
instance {p : Group → Prop} [DecidablePred p] : Decidable (∀ g, p g) :=
  decidable_of_iff (∀ g ∈ Group.all, p g)
    ⟨fun h g => h g (by cases g <;> decide), fun h g _ => h g⟩

/-- The line that reports a change of a group. -/
def GroupValue.summary : GroupValue → GroupValue → String
  | .processing old, .processing new => SettingGroup.summary old new
  | .poll old, .poll new => SettingGroup.summary old new
  | .failure old, .failure new => SettingGroup.summary old new
  | .reenqueue old, .reenqueue new => SettingGroup.summary old new
  | .ext old, .ext new => SettingGroup.summary old new
  | _, _ => ""

namespace QueueSettings

/-- The value for a group. -/
def value (s : QueueSettings) : Group → GroupValue
  | .processing => .processing s.processing
  | .poll => .poll s.poll
  | .failure => .failure s.failure
  | .reenqueue => .reenqueue s.reenqueue
  | .ext => .ext s.ext

/-- The same settings with another processing mode. -/
def withMode (s : QueueSettings) (mode : ProcessingMode) : QueueSettings :=
  { s with processing := { s.processing with mode } }

@[simp] theorem group_value (s : QueueSettings) (g : Group) : (s.value g).group = g := by
  cases g <;> rfl

/-- Settings have one value for each group. -/
theorem filter_map_value (s : QueueSettings) (g : Group) :
    (Group.all.map s.value).filter (fun v => v.group = g) = [s.value g] := by
  cases g <;> rfl

/-- Settings are equal when they are equal group by group. -/
theorem ext_value {s s' : QueueSettings} (h : ∀ g, s.value g = s'.value g) : s = s' := by
  have hprocessing := h .processing
  have hpoll := h .poll
  have hfailure := h .failure
  have hreenqueue := h .reenqueue
  have hext := h .ext
  cases s
  cases s'
  simp_all [value]

end QueueSettings

/-! ### Live values -/

/-- The live value of a group and the number of its changes. -/
structure LiveValue where
  value : GroupValue
  version : Nat
  deriving DecidableEq, Repr

namespace LiveValue

/-- A proposal that is accepted and is another value than the live one is a change. -/
def receive (v : LiveValue) (new : GroupValue) (accepted : Bool) : LiveValue :=
  if v.value = new ∨ accepted = false then v else ⟨new, v.version + 1⟩

/-- The text that reports a change, empty if there was none. -/
def report (v v' : LiveValue) : String :=
  if v'.version = v.version then "" else v.value.summary v'.value

variable {v : LiveValue} {new : GroupValue}

theorem receive_of_eq (h : v.value = new) (accepted : Bool) : v.receive new accepted = v :=
  if_pos (.inl h)

theorem receive_refused (v : LiveValue) (new : GroupValue) : v.receive new false = v :=
  if_pos (.inr rfl)

theorem receive_accepted (h : v.value ≠ new) : v.receive new true = ⟨new, v.version + 1⟩ :=
  if_neg (by simp [h])

theorem value_receive_accepted (v : LiveValue) (new : GroupValue) :
    (v.receive new true).value = new := by
  by_cases h : v.value = new
  · rw [receive_of_eq h, h]
  · rw [receive_accepted h]

theorem report_of_eq {v' : LiveValue} (h : v'.version = v.version) : v.report v' = "" := if_pos h

theorem report_of_ne {v' : LiveValue} (h : v'.version ≠ v.version) :
    v.report v' = v.value.summary v'.value := if_neg h

theorem value_receive (v : LiveValue) (new : GroupValue) (accepted : Bool) :
    (v.receive new accepted).value = v.value ∨ (v.receive new accepted).value = new := by
  cases accepted with
  | false => exact .inl (congrArg value (receive_refused v new))
  | true => exact .inr (value_receive_accepted v new)

theorem version_le_receive (v : LiveValue) (new : GroupValue) (accepted : Bool) :
    v.version ≤ (v.receive new accepted).version := by
  unfold receive
  split
  · exact Nat.le_refl _
  · exact Nat.le_succ _

end LiveValue

/-- A value that was proposed to a group: the live value before, and whether the observers have
accepted the new one. They accept the value that is there already without being asked. -/
structure Proposal where
  old : LiveValue
  value : GroupValue
  accepted : Bool
  deriving DecidableEq, Repr

namespace Proposal

/-- What became of the live value. -/
def result (p : Proposal) : LiveValue := p.old.receive p.value p.accepted

/-- The proposal has changed the group. -/
def Changes (p : Proposal) : Prop := p.result.version ≠ p.old.version

instance (p : Proposal) : Decidable p.Changes :=
  inferInstanceAs (Decidable (p.result.version ≠ p.old.version))

/-- The summary of the change, empty if there was none. -/
def summary (p : Proposal) : String := p.old.report p.result

end Proposal

/-- A configuration that was given to some cells, with the proposals that were made for it. -/
structure Round where
  config : QueueConfig
  address : Addresses
  proposals : List Proposal

/-- The report of a round lists the summaries of the changes. -/
def Round.report (r : Round) : String :=
  String.intercalate "," ((r.proposals.map (·.summary)).filter (· ≠ ""))

namespace LiveValue

variable {v : LiveValue} {ps : List Proposal}

/-- What several proposals make of a live value. -/
def follow (v : LiveValue) (ps : List Proposal) : LiveValue :=
  ps.foldl (fun v p => v.receive p.value p.accepted) v

@[simp] theorem follow_nil (v : LiveValue) : v.follow [] = v := rfl

@[simp] theorem follow_cons (v : LiveValue) (p : Proposal) (ps : List Proposal) :
    v.follow (p :: ps) = (v.receive p.value p.accepted).follow ps := rfl

theorem follow_append (v : LiveValue) (ps ps' : List Proposal) :
    v.follow (ps ++ ps') = (v.follow ps).follow ps' := List.foldl_append

/-- Proposals that are all refused make no difference. -/
theorem follow_refused (h : ∀ p ∈ ps, p.accepted = false) : v.follow ps = v := by
  induction ps generalizing v with
  | nil => rfl
  | cons p ps ih =>
    rw [follow_cons, h p List.mem_cons_self, receive_refused]
    exact ih fun p' hp' => h p' (List.mem_cons_of_mem p hp')

theorem version_le_follow (v : LiveValue) (ps : List Proposal) :
    v.version ≤ (v.follow ps).version := by
  induction ps generalizing v with
  | nil => exact Nat.le_refl _
  | cons p ps ih =>
    exact Nat.le_trans (version_le_receive v p.value p.accepted) (ih _)

/-- What was proposed last is the live value, if it was accepted. -/
theorem value_follow_last {last : Proposal} (hlast : ps.getLast? = some last)
    (haccepted : last.accepted = true) : (v.follow ps).value = last.value := by
  obtain ⟨before, rfl⟩ := List.getLast?_eq_some_iff.1 hlast
  rw [follow_append, follow_cons, follow_nil, haccepted]
  exact value_receive_accepted _ _

/-- Each of some proposals was made to the live value that was left by those before it. -/
def Leads : LiveValue → List Proposal → Prop
  | _, [] => True
  | v, p :: ps => p.old = v ∧ p.result.Leads ps

theorem Leads.append {ps' : List Proposal} (h : v.Leads ps) (h' : (v.follow ps).Leads ps') :
    v.Leads (ps ++ ps') := by
  induction ps generalizing v with
  | nil => exact h'
  | cons p ps ih =>
    obtain ⟨rfl, hrest⟩ := h
    exact ⟨rfl, ih hrest h'⟩

/-- The number of changes grows exactly when some proposal is a change. -/
theorem Leads.version_lt_iff (h : v.Leads ps) :
    v.version < (v.follow ps).version ↔ ∃ p ∈ ps, p.Changes := by
  induction ps generalizing v with
  | nil => simp
  | cons p ps ih =>
    obtain ⟨rfl, hrest⟩ := h
    have hfirst : p.old.version ≤ p.result.version := version_le_receive ..
    have hlater : p.result.version ≤ (p.result.follow ps).version := version_le_follow ..
    simp only [List.mem_cons, exists_eq_or_imp]
    rw [← ih hrest, Proposal.Changes]
    show p.old.version < (p.result.follow ps).version ↔ _
    omega

end LiveValue

/-! ### One cell -/

namespace Cell

variable {α σ : Type}

/-- Whether observers that are told a change one after the other all accept it. -/
def allAccept (tell : Tell α ω σ) (old new : α) : List ω → σ → Bool
  | [], _ => true
  | o :: os, s =>
    match tell o old new s with
    | (.ok (), s) => allAccept tell old new os s
    | (.error _, _) => false

theorem isOk_propose (tell : Tell α ω σ) (old new : α) (os accepted : List ω) (s : σ) :
    (propose tell old new os accepted s).1.isOk = allAccept tell old new os s := by
  induction os generalizing accepted s with
  | nil => rfl
  | cons o os ih =>
    simp only [propose, allAccept]
    cases tell o old new s with
    | mk answer t =>
      cases answer with
      | ok => exact ih (o :: accepted) t
      | error e => rfl

/-- The value of a cell and its version. -/
def live (of : α → GroupValue) (c : Cell α ω) : LiveValue := ⟨of c.value, c.version⟩

variable [SettingGroup α]

/-- Whether no observer refuses an update; about the value that is there already none is asked. -/
def accepts (tell : Tell α ω σ) (c : Cell α ω) (new : α) (s : σ) : Bool :=
  c.value == new || allAccept tell c.value new (c.observers.map (·.2)) s

/-- What comes of an update: nothing, if the value is there already or somebody refuses the change,
and else the new value and a summary of the change. -/
theorem set_cases (tell : Tell α ω σ) (c : Cell α ω) (new : α) (s : σ) :
    (c.value = new ∨ c.accepts tell new s = false) ∧
      (c.set tell new s).1 = "" ∧ (c.set tell new s).2.1 = c ∨
    c.value ≠ new ∧ c.accepts tell new s = true ∧
      (c.set tell new s).1 = SettingGroup.summary c.value new ∧
      (c.set tell new s).2.1 = { c with value := new, version := c.version + 1 } := by
  by_cases hsame : c.value = new
  · left
    refine ⟨.inl hsame, ?_⟩
    simp [set, trySet, hsame]
  · have hasked : c.accepts tell new s
        = (propose tell c.value new (c.observers.map (·.2)) [] s).1.isOk := by
      rw [isOk_propose]
      simp [accepts, hsame]
    unfold set trySet
    rw [if_neg fun h => hsame (beq_iff_eq.1 h), hasked]
    cases propose tell c.value new (c.observers.map (·.2)) [] s with
    | mk answer t =>
      cases answer with
      | ok => exact .inr ⟨hsame, rfl, rfl, rfl⟩
      | error e => exact .inl ⟨.inr rfl, rfl, rfl⟩

variable {of : α → GroupValue} (hof : ∀ a b, of a = of b → a = b)

include hof in
/-- An update is a proposal to the live value. -/
theorem live_set (tell : Tell α ω σ) (c : Cell α ω) (new : α) (s : σ) :
    (c.set tell new s).2.1.live of = (c.live of).receive (of new) (c.accepts tell new s) := by
  rcases set_cases tell c new s with ⟨hsame | hrefused, -, hcell⟩ | ⟨hne, haccepted, -, hcell⟩
  · rw [hcell, LiveValue.receive_of_eq (congrArg of hsame)]
  · rw [hcell, hrefused, LiveValue.receive_refused]
  · have hchanged : (c.live of).value ≠ of new := fun heq => hne (hof _ _ heq)
    rw [hcell, haccepted, LiveValue.receive_accepted hchanged]
    rfl

/-- The summary of an update reports the change. -/
theorem summary_set (hsummary : ∀ a b, (of a).summary (of b) = SettingGroup.summary a b)
    (tell : Tell α ω σ) (c : Cell α ω) (new : α) (s : σ) :
    (c.set tell new s).1 = (c.live of).report ((c.set tell new s).2.1.live of) := by
  rcases set_cases tell c new s with ⟨-, htext, hcell⟩ | ⟨-, -, htext, hcell⟩
  · rw [htext, hcell, LiveValue.report_of_eq rfl]
  · rw [htext, hcell, LiveValue.report_of_ne (Nat.succ_ne_self c.version)]
    exact (hsummary _ _).symm

end Cell

/-! ### Settings of one holder -/

namespace LiveSettings

/-- The live value of a group. -/
def live (l : LiveSettings ω) : Group → LiveValue
  | .processing => l.processing.live .processing
  | .poll => l.poll.live .poll
  | .failure => l.failure.live .failure
  | .reenqueue => l.reenqueue.live .reenqueue
  | .ext => l.ext.live .ext

variable (judge : Judge ω υ) (resize : Resize σ)

/-- Whether no observer refuses a value for a group. -/
def accepts (l : LiveSettings ω) (new : GroupValue) (s : σ) (u : υ) : Bool :=
  match new with
  | .processing v => l.processing.accepts (tellProcessing judge resize) v (s, u)
  | .poll v => l.poll.accepts (tellGroup judge .poll) v u
  | .failure v => l.failure.accepts (tellGroup judge .failure) v u
  | .reenqueue v => l.reenqueue.accepts (tellGroup judge .reenqueue) v u
  | .ext v => l.ext.accepts (tellGroup judge .ext) v u

theorem value_live (l : LiveSettings ω) (g : Group) : (l.live g).value = l.settings.value g := by
  cases g <;> rfl

@[simp] theorem group_live (l : LiveSettings ω) (g : Group) : (l.live g).value.group = g := by
  rw [value_live, QueueSettings.group_value]

/-- Settings with another cell show what is in this cell. -/
theorem live_take (l l' : LiveSettings ω) (g g' : Group) :
    (l.take l' g).live g' = if g = g' then l'.live g' else l.live g' := by
  cases g <;> cases g' <;> rfl

/-- A proposal to one group makes no difference to another one. -/
theorem live_setGroup (l : LiveSettings ω) (new : GroupValue) (s : σ) (u : υ) (g : Group) :
    (l.setGroup judge resize new s u).2.1.live g =
      if new.group = g then (l.live g).receive new (l.accepts judge resize new s u)
      else l.live g := by
  cases new with
  | processing v =>
    cases g with
    | processing => exact Cell.live_set (fun _ _ => GroupValue.processing.inj) ..
    | _ => rfl
  | poll v =>
    cases g with
    | poll => exact Cell.live_set (fun _ _ => GroupValue.poll.inj) ..
    | _ => rfl
  | failure v =>
    cases g with
    | failure => exact Cell.live_set (fun _ _ => GroupValue.failure.inj) ..
    | _ => rfl
  | reenqueue v =>
    cases g with
    | reenqueue => exact Cell.live_set (fun _ _ => GroupValue.reenqueue.inj) ..
    | _ => rfl
  | ext v =>
    cases g with
    | ext => exact Cell.live_set (fun _ _ => GroupValue.ext.inj) ..
    | _ => rfl

/-- The summary of a proposal reports the change of its group. -/
theorem summary_setGroup (l : LiveSettings ω) (new : GroupValue) (s : σ) (u : υ) :
    (l.setGroup judge resize new s u).1 =
      (l.live new.group).report ((l.setGroup judge resize new s u).2.1.live new.group) := by
  cases new <;> exact Cell.summary_set (fun _ _ => rfl) ..

end LiveSettings

/-! ### The cells of a service -/

/-- Who holds the same cell sees the same value. -/
theorem Cells.live_load {c : Cells ω} {a b : Addresses} {g : Group} (h : b g = a g) :
    (c.load b).live g = (c.load a).live g := by
  rw [← c.take_load h, LiveSettings.live_take, if_pos rfl]

namespace Service

variable (judge : Judge ω υ)

/-- Propose a value for a group to some cells. -/
def proposal (s : Service A ω) (a : Addresses) (new : GroupValue) (u : υ) : Proposal where
  old := (s.cells.load a).live new.group
  value := new
  accepted := (s.cells.load a).accepts judge (resizePool a) new s.entries u

/-- A proposal to one cell makes no difference to another one. -/
theorem live_setGroup (s : Service A ω) (a b : Addresses) (new : GroupValue) (u : υ) (g : Group) :
    ((s.setGroup judge a new u).2.1.cells.load b).live g =
      if new.group = g ∧ b g = a g then (s.proposal judge a new u).result
      else (s.cells.load b).live g := by
  rw [cells_setGroup, Cells.load_store_take]
  by_cases hgroup : new.group = g
  · subst hgroup
    by_cases haddress : b new.group = a new.group
    · rw [if_pos haddress, LiveSettings.live_take, if_pos rfl, LiveSettings.live_setGroup,
        if_pos rfl, if_pos ⟨rfl, haddress⟩]
      rfl
    · rw [if_neg haddress, if_neg (not_and_of_not_right _ haddress)]
  · rw [if_neg (not_and_of_not_left _ hgroup)]
    split
    · rw [LiveSettings.live_take, if_neg hgroup]
    · rfl

/-- The summary of a proposal reports the change of its group. -/
theorem summary_setGroup (s : Service A ω) (a : Addresses) (new : GroupValue) (u : υ) :
    (s.setGroup judge a new u).1 = (s.proposal judge a new u).summary := by
  refine (LiveSettings.summary_setGroup ..).trans ?_
  rw [LiveSettings.live_setGroup, if_pos rfl]
  rfl

/-- The proposals of values to some cells, one after the other. -/
def proposals (a : Addresses) : List GroupValue → Service A ω → υ → List Proposal
  | [], _, _ => []
  | new :: news, s, u =>
    s.proposal judge a new u ::
      proposals a news (s.setGroup judge a new u).2.1 (s.setGroup judge a new u).2.2

theorem map_value_proposals (a : Addresses) (news : List GroupValue) (s : Service A ω) (u : υ) :
    (s.proposals judge a news u).map (·.value) = news := by
  induction news generalizing s u with
  | nil => rfl
  | cons new news ih => exact congrArg (new :: ·) (ih _ _)

theorem map_summary_proposals (a : Addresses) (news : List GroupValue) (s : Service A ω) (u : υ) :
    (s.proposals judge a news u).map (·.summary) = (s.setGroups judge a news u).1 := by
  induction news generalizing s u with
  | nil => rfl
  | cons new news ih =>
    rw [proposals, List.map_cons, ← summary_setGroup, ih]
    rfl

/-- Whatever is proposed, a group follows the proposals to its cell. -/
theorem live_setGroups (a b : Addresses) (news : List GroupValue) (s : Service A ω) (u : υ)
    (g : Group) :
    ((s.setGroups judge a news u).2.1.cells.load b).live g =
      if b g = a g then
        ((s.cells.load b).live g).follow
          ((s.proposals judge a news u).filter fun p => p.value.group = g)
      else (s.cells.load b).live g := by
  induction news generalizing s u with
  | nil => exact (ite_eq_right_iff.2 fun _ => rfl).symm
  | cons new news ih =>
    refine (ih (s.setGroup judge a new u).2.1 (s.setGroup judge a new u).2.2).trans ?_
    rw [live_setGroup]
    simp only [proposals, List.filter_cons]
    by_cases haddress : b g = a g
    · by_cases hgroup : new.group = g
      · subst hgroup
        simp [proposal, haddress, Proposal.result, Cells.live_load haddress]
      · simp [proposal, haddress, hgroup]
    · simp [haddress]

/-- A proposal is made to the live value of its group. -/
theorem group_old_of_mem {a : Addresses} {news : List GroupValue} {s : Service A ω} {u : υ}
    {p : Proposal} (hp : p ∈ s.proposals judge a news u) : p.old.value.group = p.value.group := by
  induction news generalizing s u with
  | nil => cases hp
  | cons new news ih =>
    rcases List.mem_cons.1 hp with rfl | hp
    · exact LiveSettings.group_live ..
    · exact ih hp

/-- The proposals to a cell are made to its live value one after the other. -/
theorem leads_proposals (a b : Addresses) (news : List GroupValue) (s : Service A ω) (u : υ)
    {g : Group} (h : b g = a g) :
    ((s.cells.load b).live g).Leads
      ((s.proposals judge a news u).filter fun p => p.value.group = g) := by
  induction news generalizing s u with
  | nil => trivial
  | cons new news ih =>
    have hrest := ih (s.setGroup judge a new u).2.1 (s.setGroup judge a new u).2.2
    rw [live_setGroup] at hrest
    rw [proposals, List.filter_cons]
    by_cases hgroup : new.group = g
    · subst hgroup
      rw [if_pos ⟨rfl, h⟩] at hrest
      rw [if_pos (by simp [proposal])]
      exact ⟨(Cells.live_load h).symm, hrest⟩
    · rw [if_neg (not_and_of_not_left _ hgroup)] at hrest
      rw [if_neg (by simp [proposal, hgroup])]
      exact hrest

/-! ### Configurations -/

/-- Settings give one value to each group. -/
theorem targets_eq (mode : ProcessingMode) (new : QueueSettings) :
    targets mode new = Group.all.map (new.withMode mode).value := rfl

/-- Give a configuration to some cells; gives the round. -/
def give (s : Service A ω) (a : Addresses) (config : QueueConfig) (u : υ) :
    Round × Service A ω × υ :=
  (⟨config, a, s.proposals judge a (targets (s.mode a) config.settings) u⟩,
    (s.setGroups judge a (targets (s.mode a) config.settings) u).2)

/-- Settings are applied by proposals to all groups, and the report is that of the round. -/
theorem apply_eq_give (s : Service A ω) (a : Addresses) (config : QueueConfig) (u : υ) :
    s.apply judge a config.settings u =
      ((s.give judge a config u).1.report, (s.give judge a config u).2) := by
  rw [apply_eq, ← map_summary_proposals]
  rfl

end Service

end DurableQueue
