import DurableQueue.Proofs.Config.Layers
import DurableQueue.Proofs.Config.Queues
import DurableQueue.Proofs.Service.Reconfiguration
import DurableQueue.Service.Reload

/-!
# Reloads of a service

A reload either finds an obstacle in its files and leaves the service alone, or makes the settings
in the files the live ones. After that the files have nothing more to say, unless they give
different values to queues that share a cell.

* `Obstacle` says why files cannot be applied;
* `Judge.Accepting`: nobody but the pools refuses changes. Pools never do, so that all proposals are
  accepted (`Service.Course.accepted`);
* `Settled` configurations are those of the live settings, and `applyConfigs_of_settled` says that
  they change nothing;
* `Consistent` configurations give no cell two values. `Followed` says what becomes of a service
  that is reloaded without an obstacle.

**A reload keeps the service or follows the files** (`reload_keeps_or_follows`). With cells that are
shared it may change a queue that is not in the files, or never come to rest
(`contrary_files_never_settle`).
-/

namespace DurableQueue

open Config

variable {A : Signature} {ω υ : Type} {judge : Judge ω υ}

/-! ### Changes that nobody refuses -/

/-- Nobody but the pools refuses changes. -/
def Judge.Accepting (judge : Judge ω υ) : Prop := ∀ o old new u, (judge o old new u).1 = .ok ()

theorem Cell.allAccept_of_ok {α σ : Type} {tell : Cell.Tell α ω σ}
    (h : ∀ o old new s, (tell o old new s).1 = .ok ()) (old new : α) (os : List ω) (s : σ) :
    Cell.allAccept tell old new os s = true := by
  induction os generalizing s with
  | nil => rfl
  | cons o os ih =>
    have hok := h o old new s
    rw [Cell.allAccept]
    split
    · exact ih _
    next hrefused => rw [hrefused] at hok; cases hok

/-- A pool accepts every change of the processing settings. -/
theorem tellProcessing_ok {σ : Type} (h : judge.Accepting) (resize : Resize σ)
    (o : ProcessingObserver ω) (old new : ProcessingSettings) (s : σ × υ) :
    (tellProcessing judge resize o old new s).1 = .ok () := by
  cases o with
  | pool queue shard => rfl
  | other o => exact h o _ _ _

theorem LiveSettings.accepts_of_accepting {σ : Type} (h : judge.Accepting) (resize : Resize σ)
    (l : LiveSettings ω) (new : GroupValue) (s : σ) (u : υ) :
    l.accepts judge resize new s u = true := by
  cases new with
  | processing v =>
    exact Bool.or_eq_true_iff.2 (.inr (Cell.allAccept_of_ok (tellProcessing_ok h resize) ..))
  | _ => exact Bool.or_eq_true_iff.2 (.inr (Cell.allAccept_of_ok (fun _ _ _ _ => h ..) ..))

namespace Service

theorem accepted_of_mem_proposals (h : judge.Accepting) {a : Addresses} {news : List GroupValue}
    {s : Service A ω} {u : υ} {p : Proposal} (hp : p ∈ s.proposals judge a news u) :
    p.accepted = true := by
  induction news generalizing s u with
  | nil => cases hp
  | cons new news ih =>
    rcases List.mem_cons.1 hp with rfl | hp
    · exact LiveSettings.accepts_of_accepting h ..
    · exact ih hp

/-- When nobody refuses changes, all proposals are accepted. -/
theorem Course.accepted (h : judge.Accepting) {s s' : Service A ω} {rounds : List Round}
    (hcourse : Course judge s rounds s') {r : Round} (hr : r ∈ rounds) {p : Proposal}
    (hp : p ∈ r.proposals) : p.accepted = true := by
  induction hcourse with
  | done => cases hr
  | round config u hq hrest ih =>
    rcases List.mem_cons.1 hr with rfl | hr
    · exact accepted_of_mem_proposals h hp
    · exact ih hr

end Service

/-! ### Settings that are there already -/

theorem Cell.set_of_eq {α σ : Type} [SettingGroup α] (tell : Cell.Tell α ω σ) {c : Cell α ω}
    {new : α} (h : c.value = new) (s : σ) : c.set tell new s = ("", c, s) := by
  simp [Cell.set, Cell.trySet, h]

/-- The live value of a group is proposed to no effect, and nobody is asked. -/
theorem LiveSettings.setGroup_value {σ : Type} (judge : Judge ω υ) (resize : Resize σ)
    (l : LiveSettings ω) (g : Group) (s : σ) (u : υ) :
    l.setGroup judge resize (l.settings.value g) s u = ("", l, s, u) := by
  cases g <;> simp only [setGroup, QueueSettings.value, settings, Cell.set_of_eq]

namespace Service

variable {s s' : Service A ω} {configs : List QueueConfig}

theorem setGroup_value (judge : Judge ω υ) (s : Service A ω) (a : Addresses) (g : Group) (u : υ) :
    s.setGroup judge a ((s.cells.load a).settings.value g) u = ("", s, u) := by
  simp only [setGroup, LiveSettings.setGroup_value, Cells.store_load]

/-- The live values of some groups are proposed to no effect. -/
theorem setGroups_values (judge : Judge ω υ) (gs : List Group) (s : Service A ω) (a : Addresses)
    (u : υ) :
    s.setGroups judge a (gs.map (s.cells.load a).settings.value) u =
      (gs.map fun _ => "", s, u) := by
  induction gs with
  | nil => rfl
  | cons g gs ih => simp only [List.map_cons, setGroups, setGroup_value, ih]

/-- Settings that are there already are applied to no effect. -/
theorem apply_of_settled (judge : Judge ω υ) {a : Addresses} {new : QueueSettings}
    (h : (s.cells.load a).settings = new.withMode (s.mode a)) (u : υ) :
    s.apply judge a new u = ("", s, u) := by
  rw [apply_eq, targets_eq, ← h, setGroups_values]
  rfl

/-! ### Configurations that are there already -/

/-- The settings of some configurations are live, but for the processing modes. -/
def Settled (configs : List QueueConfig) (s : Service A ω) : Prop :=
  ∀ c ∈ configs, ∃ q, s.queues.get? c.location.queue = some q ∧
    q.settings = c.settings.withMode q.settings.processing.mode

/-- Configurations change nothing when their settings are live. -/
theorem applyConfigs_of_settled (judge : Judge ω υ) (h : Settled configs s) (changes : Changes)
    (u : υ) : applyConfigs judge (configs.map QueueConfig.given) s changes u = (s, changes, u) := by
  induction configs with
  | nil => rfl
  | cons c cs ih =>
    obtain ⟨q, hq, hsettings⟩ := h c List.mem_cons_self
    obtain ⟨he, -, hcells⟩ := entry_of_get? hq
    have hlive : (s.cells.load q.address).settings = c.settings.withMode (s.mode q.address) := by
      rw [mode_of_get? hq, ← hcells]
      exact hsettings
    have hone : applyConfig judge c.given s changes u = (s, changes, u) := by
      simp only [applyConfig, QueueConfig.given, he, Cells.read, apply_of_settled judge hlive,
        if_pos]
    rw [List.map_cons, applyConfigs, hone]
    exact ih fun c' hc' => h c' (List.mem_cons_of_mem c hc')

theorem allRegistered_given (h : ∀ c ∈ configs, s.queues.contains c.location.queue = true) :
    s.AllRegistered (configs.map QueueConfig.given) := by
  intro c hc
  obtain ⟨c, hmem, rfl⟩ := List.mem_map.1 hc
  exact h c hmem

theorem update_of_settled (judge : Judge ω υ) (h : Settled configs s) (u : υ) :
    s.update judge (configs.map QueueConfig.given) u = (.ok .empty, s, u) := by
  have hregistered : ∀ c ∈ configs, s.queues.contains c.location.queue = true := by
    intro c hc
    obtain ⟨q, hq, -⟩ := h c hc
    rw [Dict.contains, hq]
    rfl
  rw [update_of_registered judge (allRegistered_given hregistered),
    applyConfigs_of_settled judge h]

/-! ### Configurations that are followed -/

/-- A configuration comes to the cell that a queue holds for a group. -/
def ComesTo (s : Service A ω) (c : QueueConfig) (q : LiveQueue A ω) (g : Group) : Prop :=
  ∃ named, s.queues.get? c.location.queue = some named ∧ named.address g = q.address g

/-- No two configurations give different values to the same cell. -/
def Consistent (configs : List QueueConfig) (s : Service A ω) : Prop :=
  ∀ c ∈ configs, ∀ c' ∈ configs, ∀ q, s.queues.get? c.location.queue = some q →
    ∀ g, s.ComesTo c' q g → ∀ mode,
      (c'.settings.withMode mode).value g = (c.settings.withMode mode).value g

/-- A queue follows configurations: a group has the value of the last one that comes to its cell,
and the queue is as it was if none comes to any of its cells. -/
structure Follows (configs : List QueueConfig) (s : Service A ω) (q q' : LiveQueue A ω) : Prop where
  stays : q.Stays q'
  last : ∀ g before c after, configs = before ++ c :: after → s.ComesTo c q g →
    (∀ c' ∈ after, ¬ s.ComesTo c' q g) →
      q'.settings.value g = (c.settings.withMode q.settings.processing.mode).value g
  untouched : (∀ c ∈ configs, ∀ g, ¬ s.ComesTo c q g) → q' = q

/-- A service follows configurations: each of its queues does, and when no cell is given two values,
each queue that is named has the settings of its configuration, but keeps its mode. -/
structure Followed (configs : List QueueConfig) (s s' : Service A ω) : Prop where
  shards : s'.shards = s.shards
  contains : ∀ queue, s'.queues.contains queue = s.queues.contains queue
  queues : ∀ queue q, s.queues.get? queue = some q → ∃ q', s'.queues.get? queue = some q' ∧
    Follows configs s q q'
  named : Consistent configs s → ∀ c ∈ configs, ∃ q q',
    s.queues.get? c.location.queue = some q ∧ s'.queues.get? c.location.queue = some q' ∧
    q'.settings = c.settings.withMode q.settings.processing.mode

theorem Followed.settled (h : Followed configs s s') (hconsistent : Consistent configs s) :
    Settled configs s' := by
  intro c hc
  obtain ⟨q, q', -, hq', hsettings⟩ := h.named hconsistent c hc
  refine ⟨q', hq', ?_⟩
  rw [hsettings]
  rfl

/-- A round comes to a cell when its configuration does. -/
theorem Course.address_eq_iff {rounds : List Round} (h : Course judge s rounds s')
    {r : Round} (hr : r ∈ rounds) (q : LiveQueue A ω) (g : Group) :
    r.address g = q.address g ↔ s.ComesTo r.config q g := by
  obtain ⟨named, hnamed, haddress, -⟩ := h.named hr
  rw [haddress]
  refine ⟨fun heq => ⟨named, hnamed, heq⟩, fun ⟨named', hnamed', heq⟩ => ?_⟩
  cases hnamed.symm.trans hnamed'
  exact heq

/-- When nobody but the pools refuses changes, a queue follows the configurations of all rounds. -/
theorem Course.follows (hjudge : judge.Accepting) {rounds : List Round}
    (h : Course judge s rounds s') {q q' : LiveQueue A ω} (hq : Reconfigured rounds q q') :
    Follows (rounds.map (·.config)) s q q' where
  stays := hq.stays
  last g before c after hconfigs hc hafter := by
    obtain ⟨rs, rs', hrounds, rfl, hrest⟩ := List.map_eq_append_iff.1 hconfigs
    obtain ⟨r, rs', rfl, rfl, rfl⟩ := List.map_eq_cons_iff.1 hrest
    have hr : r ∈ rounds := by simp [hrounds]
    have hlast : (roundsTo q.address g rounds).getLast? = some r := by
      have hnone : rs'.filter (fun r => r.address g = q.address g) = [] := by
        rw [List.filter_eq_nil_iff]
        intro r' hr' heq
        refine hafter r'.config (List.mem_map_of_mem hr') ?_
        exact (h.address_eq_iff (by simp [hrounds, hr']) q g).1 (of_decide_eq_true heq)
      rw [roundsTo, hrounds, List.filter_append, List.filter_cons,
        if_pos (by simpa using (h.address_eq_iff hr q g).2 hc), hnone, List.getLast?_concat]
    refine hq.groupAccepted g (fun p hp => ?_) r hlast
    obtain ⟨r, hr, hp, -⟩ := mem_proposalsTo.1 hp
    exact h.accepted hjudge (List.mem_filter.1 hr).1 hp
  untouched hnone := hq.untouched fun r hr g heq =>
    hnone r.config (List.mem_map_of_mem hr) g ((h.address_eq_iff hr q g).1 heq)

/-- Among configurations that come to a cell there is a last one. -/
theorem exists_last {q : LiveQueue A ω} {g : Group} {c : QueueConfig} (hc : c ∈ configs)
    (hcomes : s.ComesTo c q g) :
    ∃ before last after, configs = before ++ last :: after ∧ s.ComesTo last q g ∧
      ∀ c' ∈ after, ¬ s.ComesTo c' q g := by
  classical
  induction configs generalizing c with
  | nil => cases hc
  | cons first rest ih =>
    by_cases hrest : ∃ c' ∈ rest, s.ComesTo c' q g
    · obtain ⟨c', hc', hcomes'⟩ := hrest
      obtain ⟨before, last, after, rfl, hlast⟩ := ih hc' hcomes'
      exact ⟨first :: before, last, after, rfl, hlast⟩
    · rcases List.mem_cons.1 hc with rfl | hc
      · exact ⟨[], c, rest, rfl, hcomes, fun c' hc' h => hrest ⟨c', hc', h⟩⟩
      · exact absurd ⟨c, hc, hcomes⟩ hrest

/-- When nobody but the pools refuses changes, configurations are followed. -/
theorem followed_applyConfigs (hjudge : judge.Accepting)
    (hregistered : ∀ c ∈ configs, s.queues.contains c.location.queue = true) (u : υ) :
    Followed configs s
      (applyConfigs judge (configs.map QueueConfig.given) s .empty u).1 := by
  have hcourse := course_applyConfigs judge (configs.map QueueConfig.given) s .empty u
  have hconfigs := map_config_rounds judge (allRegistered_given hregistered) u
  have hqueues : ∀ queue q, s.queues.get? queue = some q → ∃ q',
      (applyConfigs judge (configs.map QueueConfig.given) s .empty u).1.queues.get? queue
        = some q' ∧ Follows configs s q q' := by
    intro queue q hq
    obtain ⟨q', hq', hconfigured⟩ := hcourse.reconfigured hq
    refine ⟨q', hq', ?_⟩
    rw [← hconfigs]
    exact hcourse.follows hjudge hconfigured
  refine ⟨hcourse.shards, hcourse.contains, hqueues, fun hconsistent c hc => ?_⟩
  obtain ⟨q, hq⟩ := Option.isSome_iff_exists.1 (hregistered c hc)
  obtain ⟨q', hq', hfollows⟩ := hqueues _ q hq
  refine ⟨q, q', hq, hq', QueueSettings.ext_value fun g => ?_⟩
  obtain ⟨before, last, after, heq, hcomes, hnone⟩ :=
    exists_last (q := q) (g := g) hc ⟨q, hq, rfl⟩
  rw [hfollows.last g before last after heq hcomes hnone]
  exact hconsistent c hc last (by simp [heq]) q hq g hcomes _

/-- The first configuration that names no registered queue is an error. -/
theorem update_of_unregistered (judge : Judge ω υ) {before after : List QueueConfig}
    {c : QueueConfig} (hbefore : ∀ c' ∈ before, s.queues.contains c'.location.queue = true)
    (hc : s.queues.contains c.location.queue = false) (u : υ) :
    s.update judge ((before ++ c :: after).map QueueConfig.given) u =
      (.error (.queueNotRegistered c.location.queue), s, u) := by
  have hfirst : ((before ++ c :: after).map QueueConfig.given).find?
      (fun c => !s.entries.contains c.location.queue) = some c.given := by
    rw [List.find?_eq_some_iff_append]
    refine ⟨by simpa [QueueConfig.given] using hc, before.map QueueConfig.given,
      after.map QueueConfig.given, by simp, ?_⟩
    simpa [QueueConfig.given] using hbefore
  rw [update, hfirst]
  rfl

end Service

/-! ### Reloads -/

/-- Why files cannot be applied to a service: the first file that cannot be read, the problems of
the configuration, or the first queue that is not registered. -/
inductive Obstacle (keyPrefix : String) (files : List File) (s : Service A ω) : ReloadError → Prop
  | unreadable (texts : List String) (fault : FileFault) (rest : List File)
    (hfiles : files = texts.map .ok ++ .error fault :: rest) :
    Obstacle keyPrefix files s (.config (.unreadable texts.length fault))
  | invalid (texts : List String) (hfiles : files = texts.map .ok) (e : ConfigError)
    (hparse : parseReported keyPrefix (merged texts) = .error e) :
    Obstacle keyPrefix files s (.config e)
  | unregistered (texts : List String) (hfiles : files = texts.map .ok)
    (before : List QueueConfig) (c : QueueConfig) (after : List QueueConfig)
    (hparse : parseReported keyPrefix (merged texts) = .ok (before ++ c :: after))
    (hbefore : ∀ c' ∈ before, s.queues.contains c'.location.queue = true)
    (hc : s.queues.contains c.location.queue = false) :
    Obstacle keyPrefix files s (.service (.queueNotRegistered c.location.queue))

/-- Files that can be applied hold configurations of registered queues. -/
structure Applicable (keyPrefix : String) (texts : List String) (configs : List QueueConfig)
    (s : Service A ω) : Prop where
  parsed : parseReported keyPrefix (merged texts) = .ok configs
  registered : ∀ c ∈ configs, s.queues.contains c.location.queue = true

variable {keyPrefix : String} {files : List File} {s : Service A ω}

/-- An obstacle keeps the service. -/
theorem reload_of_obstacle (judge : Judge ω υ) {e : ReloadError} (h : Obstacle keyPrefix files s e)
    (u : υ) : reload judge keyPrefix files s u = (.error e, s, u) := by
  cases h with
  | unreadable texts fault rest hfiles =>
    have hread : Config.read keyPrefix files = .error (.unreadable texts.length fault) := by
      rw [hfiles, Config.read, readFiles_unreadable, Nat.zero_add]
    rw [reload, hread]
  | invalid texts hfiles e hparse =>
    rw [reload, hfiles, read_texts, hparse]
  | unregistered texts hfiles before c after hparse hbefore hc =>
    rw [reload, hfiles, read_texts, hparse]
    simp only [Service.update_of_unregistered judge hbefore hc]

/-- There is an obstacle, or the files can be applied. -/
theorem obstacle_or_applicable (keyPrefix : String) (files : List File) (s : Service A ω) :
    (∃ e, Obstacle keyPrefix files s e) ∨
      ∃ (texts : List String) (configs : List QueueConfig), files = texts.map .ok ∧
        Applicable keyPrefix texts configs s := by
  rcases texts_or_unreadable files with ⟨texts, hfiles⟩ | ⟨texts, fault, rest, hfiles⟩
  · cases hparse : parseReported keyPrefix (merged texts) with
    | error e => exact .inl ⟨_, .invalid texts hfiles e hparse⟩
    | ok configs =>
      cases hfirst : configs.find? fun c => !s.queues.contains c.location.queue with
      | none =>
        rw [List.find?_eq_none] at hfirst
        exact .inr ⟨texts, configs, hfiles, hparse, by simpa using hfirst⟩
      | some c =>
        obtain ⟨hc, before, after, rfl, hbefore⟩ := List.find?_eq_some_iff_append.1 hfirst
        exact .inl ⟨_, .unregistered texts hfiles before c after hparse (by simpa using hbefore)
          (by simpa using hc)⟩
  · exact .inl ⟨_, .unreadable texts fault rest hfiles⟩

variable {texts : List String} {configs : List QueueConfig}

/-- Files that can be applied are a reload like an update by their configurations. -/
theorem reload_of_applicable (judge : Judge ω υ) (h : Applicable keyPrefix texts configs s)
    (u : υ) :
    reload judge keyPrefix (texts.map .ok) s u =
      (.ok (Service.applyConfigs judge (configs.map QueueConfig.given) s .empty u).2.1,
        (Service.applyConfigs judge (configs.map QueueConfig.given) s .empty u).1,
        (Service.applyConfigs judge (configs.map QueueConfig.given) s .empty u).2.2) := by
  rw [reload, read_texts, h.parsed]
  simp only [Service.update_of_registered judge (Service.allRegistered_given h.registered)]

/-- Files whose settings are live change nothing. -/
theorem reload_of_settled (judge : Judge ω υ)
    (hparse : parseReported keyPrefix (merged texts) = .ok configs)
    (h : Service.Settled configs s) (u : υ) :
    reload judge keyPrefix (texts.map .ok) s u = (.ok .empty, s, u) := by
  rw [reload, read_texts, hparse]
  simp only [Service.update_of_settled judge h]

/-- **A reload keeps the service or follows the files.** Unless all files can be read, hold a
configuration without problems and name registered queues only, the reload is an error that tells
why, the service is the same and nobody is asked.

Otherwise, if nobody but the pools refuses changes, each cell has the value of the last
configuration in the files that comes to it, and a queue is as it was if none comes to its cells.
When the files do not give two values to one cell, each queue in the files has the settings from
there except for its mode, and to reload the same files again changes nothing, reports nothing and
asks nobody. -/
theorem reload_keeps_or_follows (judge : Judge ω υ) (keyPrefix : String) (files : List File)
    (s : Service A ω) (u : υ) :
    ((∀ texts configs, files = texts.map .ok → ¬ Applicable keyPrefix texts configs s) →
      ∃ e, Obstacle keyPrefix files s e ∧ reload judge keyPrefix files s u = (.error e, s, u)) ∧
    ∀ texts configs, files = texts.map .ok → Applicable keyPrefix texts configs s →
      judge.Accepting →
        ∃ changes s' u', reload judge keyPrefix files s u = (.ok changes, s', u') ∧
          Service.Followed configs s s' ∧
          (Service.Consistent configs s → ∀ (judge' : Judge ω υ) (u'' : υ),
            reload judge' keyPrefix files s' u'' = (.ok .empty, s', u'')) := by
  constructor
  · intro hnever
    rcases obstacle_or_applicable keyPrefix files s with ⟨e, he⟩ | ⟨texts, configs, hfiles, h⟩
    · exact ⟨e, he, reload_of_obstacle judge he u⟩
    · exact absurd h (hnever texts configs hfiles)
  · rintro texts configs rfl happlicable hjudge
    have hfollowed := Service.followed_applyConfigs hjudge happlicable.registered u
    exact ⟨_, _, _, reload_of_applicable judge happlicable u, hfollowed,
      fun hconsistent judge' u'' =>
        reload_of_settled judge' happlicable.parsed (hfollowed.settled hconsistent) u''⟩

/-- Nobody refuses a change. -/
def agreeable : Judge Unit Unit := fun _ _ _ u => (.ok (), u)

/-- A file with the settings of one queue, and one that overrides some of them. -/
def layers : List String :=
  ["tq.orders.table = tasks\ntq.orders.thread-count = 4\ntq.orders.no-task-timeout = PT5S",
    "tq.orders.thread-count = 2\ntq.orders.processing-mode = wrap-in-transaction"]

/-- The same files and one that is not there. -/
def incomplete : List File := layers.map .ok ++ [.error .notFound]

/-- The settings of the queue in the files. -/
def layered : QueueSettings :=
  { processing := { threadCount := .clamp 2, mode := .wrapInTransaction }
    poll := { noTask := .ofSeconds 5 } }

/-- With a third file that is not there, the service stays as it is. Without that file one of its
two queues has the settings of the other files but for the mode, and only for the first time. -/
theorem missing_layer_keeps_and_layers_are_followed :
    (∃ e, reload agreeable "tq" incomplete Service.observedPair ()
      = (.error e, Service.observedPair, ())) ∧
    ∃ changes s' orders, reload agreeable "tq" (layers.map .ok) Service.observedPair ()
        = (.ok changes, s', ()) ∧
      s'.queues.get? "orders" = some orders ∧
      orders.settings = layered.withMode .separateTransactions ∧
      s'.queues.get? "mail" = Service.observedPair.queues.get? "mail" ∧
      reload agreeable "tq" (layers.map .ok) s' () = (.ok .empty, s', ()) := by
  constructor
  · have hnever : ∀ texts configs, incomplete = texts.map .ok →
        ¬ Applicable "tq" texts configs Service.observedPair := by
      intro texts configs hfiles
      have hmissing : .error FileFault.notFound ∈ texts.map Except.ok := by
        rw [← hfiles]
        simp [incomplete]
      simp at hmissing
    obtain ⟨e, -, he⟩ := (reload_keeps_or_follows agreeable "tq" _ Service.observedPair ()).1 hnever
    exact ⟨e, he⟩
  · have happlicable : Applicable "tq" layers [⟨.of "orders" "tasks", layered⟩]
        Service.observedPair := ⟨by decide +kernel, by decide +kernel⟩
    obtain ⟨changes, s', u', hreload, hfollowed, hagain⟩ :=
      (reload_keeps_or_follows agreeable "tq" (layers.map .ok) Service.observedPair ()).2 layers _
        rfl happlicable fun _ _ _ _ => rfl
    have hconsistent : Service.Consistent [⟨.of "orders" "tasks", layered⟩]
        Service.observedPair := by
      intro c hc c' hc' _ _ _ _ _
      cases List.mem_singleton.1 hc
      cases List.mem_singleton.1 hc'
      rfl
    obtain ⟨q, orders, hq, horders, hsettings⟩ :=
      hfollowed.named hconsistent _ (List.mem_singleton_self _)
    have hmode : q.settings.processing.mode = .separateTransactions := by
      cases hq
      rfl
    obtain ⟨mail, hmail⟩ : ∃ mail, Service.observedPair.queues.get? "mail" = some mail := ⟨_, rfl⟩
    obtain ⟨mail', hmail', hfollows⟩ := hfollowed.queues "mail" mail hmail
    have hapart : ∀ c ∈ [⟨.of "orders" "tasks", layered⟩], ∀ g,
        ¬ Service.observedPair.ComesTo c mail g := by
      rintro c hc g ⟨named, hnamed, haddress⟩
      cases List.mem_singleton.1 hc
      cases hmail
      cases hnamed
      cases g <;> cases haddress
    refine ⟨changes, s', orders, hreload, horders, ?_, ?_, hagain hconsistent agreeable ()⟩
    · rw [hsettings, hmode]
    · rw [hmail', hfollows.untouched hapart, hmail]

/-- A file with one of two queues. -/
def oneOfTwo : String := "tq.mail.table = tasks\ntq.mail.no-task-timeout = PT5S"

/-- A file that gives two queues different times. -/
def contrary : String :=
  "tq.mail.table = tasks\ntq.mail.no-task-timeout = PT5S\n" ++
  "tq.orders.table = tasks\ntq.orders.no-task-timeout = PT7S"

/-- Two queues have the same settings. A file with one of them changes the other one, and when a
file gives them different times, one queue does not have its time from there and to reload the file
again changes them again. -/
theorem contrary_files_never_settle :
    (∃ changes s' before after,
      reload agreeable "tq" [.ok oneOfTwo] Service.twins () = (.ok changes, s', ()) ∧
      Service.twins.queues.get? "orders" = some before ∧ s'.queues.get? "orders" = some after ∧
      before.live .poll = ⟨.poll {}, 0⟩ ∧
      after.live .poll = ⟨.poll { noTask := .ofSeconds 5 }, 1⟩) ∧
    ∃ changes s' changes' s'' mail mail',
      reload agreeable "tq" [.ok contrary] Service.twins () = (.ok changes, s', ()) ∧
      s'.queues.get? "mail" = some mail ∧
      mail.live .poll = ⟨.poll { noTask := .ofSeconds 7 }, 2⟩ ∧
      reload agreeable "tq" [.ok contrary] s' () = (.ok changes', s'', ()) ∧
      changes' ≠ .empty ∧ s''.queues.get? "mail" = some mail' ∧
      mail'.live .poll = ⟨.poll { noTask := .ofSeconds 7 }, 4⟩ := by
  have hone : Applicable "tq" [oneOfTwo] [⟨.of "mail" "tasks", Service.paced 5⟩]
      Service.twins := ⟨by decide +kernel, by decide +kernel⟩
  have hparse : parseReported "tq" (merged [contrary]) =
      .ok [⟨.of "mail" "tasks", Service.paced 5⟩, ⟨.of "orders" "tasks", Service.paced 7⟩] := by
    decide +kernel
  have hcontrary := reload_of_applicable agreeable (s := Service.twins)
    ⟨hparse, by decide +kernel⟩ ()
  refine ⟨⟨_, _, _, _, reload_of_applicable agreeable hone (), rfl, rfl, rfl, rfl⟩,
    _, _, _, _, _, _, hcontrary, rfl, rfl,
    reload_of_applicable agreeable ⟨hparse, by decide +kernel⟩ (), ?_, rfl, rfl⟩
  decide +kernel

end DurableQueue
