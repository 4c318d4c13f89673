import DurableQueue.Proofs.Config.Queues
import DurableQueue.Retry.Strategy

/-!
# Re-enqueue settings from a configuration

The re-enqueue settings of an accepted configuration are those of a strategy: the type has exactly
its parameters, so that nothing is missing when the strategy is built and asked for delays.

* `Strategy.settings` are the settings of a strategy, and `ofSettings_settings` builds it again;
* `ReenqueueSettings.parameters` lists the parameters that settings carry;
* `Selects`, `Mirrors` and `Misfit` say what the texts of settings select, which settings repeat
  them, and which of them are wrong for a type;
* `mirrors_of_readReenqueue`, `readReenqueue_of_mirrors` and `mem_parameterFaults_iff` are about
  one section, and `accepted_settings_make_strategies` is the main statement.
-/

namespace DurableQueue

/-! ### Strategies and settings -/

namespace Strategy

/-- The settings of a strategy. -/
def settings : Strategy → ReenqueueSettings
  | .manual => .manual
  | .fixed delay => .fixed delay
  | .sequential plan => .sequential plan
  | .arithmetic initial step => .arithmetic initial step
  | .geometric initial ratio => .geometric initial ratio

theorem validate_settings {strategy : Strategy} (h : strategy ≠ .sequential []) :
    strategy.settings.validate = .ok () := by
  cases strategy with
  | sequential plan =>
    cases plan with
    | nil => exact absurd rfl h
    | cons d plan => rfl
  | _ => rfl

/-- A strategy is built again from its settings. -/
theorem ofSettings_settings {strategy : Strategy} (h : strategy ≠ .sequential []) :
    ofSettings strategy.settings = .ok strategy := by
  rw [ofSettings, validate_settings h]
  cases strategy <;> rfl

theorem sequentialPlan_settings {strategy : Strategy} (h : strategy ≠ .sequential []) :
    strategy.settings.sequentialPlan ≠ some [] := by
  cases strategy with
  | sequential plan => exact fun hplan => h (congrArg Strategy.sequential (Option.some.inj hplan))
  | _ => simp [settings, ReenqueueSettings.manual, ReenqueueSettings.fixed,
      ReenqueueSettings.arithmetic, ReenqueueSettings.geometric]

/-- Each place of a plan, also one behind its end, has a delay of the plan. -/
theorem mem_of_delay_sequential {plan : List Delay} (h : plan ≠ []) (n : Nat) :
    plan[min n (plan.length - 1)]?.getD .zero ∈ plan := by
  have hlt : min n (plan.length - 1) < plan.length := by
    have := List.length_pos_iff.2 h
    omega
  rw [List.getElem?_eq_getElem hlt]
  exact List.getElem_mem hlt

/-- All strategies but the manual one have a delay for every attempt, one of the plan if there is
a plan. -/
theorem exists_delay {strategy : Strategy} (h : strategy ≠ .sequential [])
    (htype : strategy.settings.retryType ≠ .manual) (attempt : Count) :
    ∃ d, strategy.delay attempt = .ok d ∧
      ∀ plan, strategy.settings.sequentialPlan = some plan → d ∈ plan := by
  cases strategy with
  | manual => exact absurd rfl htype
  | sequential plan =>
    refine ⟨_, rfl, ?_⟩
    rintro _ ⟨⟩
    exact mem_of_delay_sequential (fun hnil => h (congrArg Strategy.sequential hnil)) _
  | _ => exact ⟨_, rfl, fun _ hplan => nomatch hplan⟩

end Strategy

/-- The parameters that settings carry, by the names of their settings. -/
def ReenqueueSettings.parameters (r : ReenqueueSettings) : List String :=
  [("reenqueue-retry-delay", r.fixedDelay.isSome),
    ("reenqueue-retry-plan", r.sequentialPlan.isSome),
    ("reenqueue-retry-initial-delay", r.initialDelay.isSome),
    ("reenqueue-retry-step", r.arithmeticStep.isSome),
    ("reenqueue-retry-ratio", r.geometricRatio.isSome)].filterMap fun p =>
      if p.2 then some p.1 else none

/-- The settings of a strategy carry the parameters of their type and no others. -/
theorem Strategy.parameters_settings (strategy : Strategy) :
    strategy.settings.parameters = Config.Section.parametersOf strategy.settings.retryType := by
  cases strategy <;> rfl

namespace Config

/-! ### What the texts of settings say -/

/-- Settings given by their texts select a re-enqueue type, without a text the manual one. -/
def Selects (raw : String → Option String) (type : ReenqueueRetryType) : Prop :=
  raw "reenqueue-retry-type" = some type.name ∨
    raw "reenqueue-retry-type" = none ∧ type = .manual

/-- The type is the selected one, and parameters are there exactly when their settings are, with
the values of their texts. -/
structure Mirrors (raw : String → Option String) (r : ReenqueueSettings) : Prop where
  selects : Selects raw r.retryType
  fixedDelay : (raw "reenqueue-retry-delay").map Section.parseDelay = r.fixedDelay.map .ok
  sequentialPlan : (raw "reenqueue-retry-plan").map Section.parsePlan = r.sequentialPlan.map .ok
  initialDelay : (raw "reenqueue-retry-initial-delay").map Section.parseDelay
    = r.initialDelay.map .ok
  arithmeticStep : (raw "reenqueue-retry-step").map Section.parseDelay = r.arithmeticStep.map .ok
  geometricRatio : (raw "reenqueue-retry-ratio").map Section.parseCount = r.geometricRatio.map .ok

/-- What is wrong with the parameters for a re-enqueue type. -/
inductive Misfit (raw : String → Option String) (type : ReenqueueRetryType) : SettingFault → Prop
  | lacking {p : String} (needed : p ∈ Section.parametersOf type) (absent : raw p = none) :
    Misfit raw type ⟨p, .requiredByType⟩
  | unused {p : String} (parameter : p ∈ Section.reenqueueParameters)
    (foreign : p ∉ Section.parametersOf type) (present : raw p ≠ none) :
    Misfit raw type ⟨p, .unusedByType⟩

namespace Section

variable {s : Section} {type : ReenqueueRetryType} {r : ReenqueueSettings}

theorem parse_reenqueueRetryType_eq_ok_iff {text : String} :
    ReenqueueRetryType.parse text = .ok type ↔ text = type.name := by
  unfold ReenqueueRetryType.parse
  constructor
  · intro h
    split at h
    next t hfind =>
      cases h
      have hname := List.find?_some hfind
      exact (beq_iff_eq.1 hname).symm
    · cases h
  · rintro rfl
    cases type <;> rfl

theorem reenqueueType_eq_ok_iff : s.reenqueueType = .ok type ↔ Selects s.get? type := by
  unfold reenqueueType read Selects parseName
  cases s.get? "reenqueue-retry-type" with
  | none => simp [eq_comm]
  | some text =>
    simp only [Option.some.injEq, reduceCtorEq, false_and, or_false,
      ← parse_reenqueueRetryType_eq_ok_iff]
    cases ReenqueueRetryType.parse text <;> simp

theorem mem_parameterFaults_iff {f : SettingFault} :
    f ∈ parameterFaults s type ↔ Misfit s.get? type f := by
  simp only [parameterFaults, List.mem_append, List.mem_map, List.mem_filter, Dict.contains,
    Bool.and_eq_true, Bool.not_eq_true', Option.isSome_eq_false_iff, List.contains_eq_mem,
    decide_eq_false_iff_not, Option.isNone_iff_eq_none]
  constructor
  · rintro (⟨p, ⟨hp, habsent⟩, rfl⟩ | ⟨p, ⟨hp, hpresent, hnot⟩, rfl⟩)
    · exact .lacking hp habsent
    · exact .unused hp hnot (Option.isSome_iff_ne_none.1 hpresent)
  · rintro (⟨hp, habsent⟩ | ⟨hp, hnot, hpresent⟩)
    · exact .inl ⟨_, ⟨hp, habsent⟩, rfl⟩
    · exact .inr ⟨_, ⟨hp, Option.isSome_iff_ne_none.2 hpresent, hnot⟩, rfl⟩

theorem readPresent_eq_ok_iff {α : Type} {parse : String → Except Fault α} {setting : String}
    {a : α} : readPresent parse s setting = .ok a ↔
      (s.get? setting).map parse = (some a).map .ok := by
  unfold readPresent read
  cases s.get? setting with
  | none => simp
  | some raw => cases hparse : parse raw <;> simp [hparse]

theorem readOne_eq_ok_iff {α : Type} {build : α → ReenqueueSettings} {a : Except SettingFault α} :
    readOne build a = .ok r ↔ ∃ x, a = .ok x ∧ build x = r := by
  cases a <;> simp [readOne]

theorem readTwo_eq_ok_iff {α β : Type} {build : α → β → ReenqueueSettings}
    {a : Except SettingFault α} {b : Except SettingFault β} :
    readTwo build a b = .ok r ↔ ∃ x y, a = .ok x ∧ b = .ok y ∧ build x y = r := by
  cases a <;> cases b <;> simp [readTwo]

theorem parsePlan_ne_nil {raw : String} : parsePlan raw ≠ .ok [] := by
  unfold parsePlan
  split <;> simp_all

/-- Accepted settings have a type with its parameters, and are read from these. -/
theorem of_readReenqueue_eq_ok (h : readReenqueue s = .ok r) :
    ∃ type, s.reenqueueType = .ok type ∧ parameterFaults s type = [] ∧
      readParameters s type = .ok r := by
  cases htype : s.reenqueueType with
  | error f => simp [readReenqueue_of_no_type htype] at h
  | ok type =>
    refine ⟨type, rfl, ?_⟩
    by_cases hf : parameterFaults s type = []
    · rw [readReenqueue_of_parameters htype hf] at h
      cases hread : readParameters s type with
      | error fs => simp [hread, Except.bind] at h
      | ok settings =>
        simp only [hread, Except.bind] at h
        split at h
        · exact ⟨hf, congrArg _ (Except.ok.inj h)⟩
        · cases h
    · simp [readReenqueue_of_parameterFaults htype hf] at h

/-- Parameters that their type has no use for are absent. -/
theorem absent_of_parameterFaults {α : Type} {parse : String → Except Fault α} {setting : String}
    (hf : parameterFaults s type = [])
    (h : setting ∈ reenqueueParameters ∧ setting ∉ parametersOf type) :
    (s.get? setting).map parse = (none : Option α).map .ok := by
  have habsent : s.get? setting = none := by
    by_contra hpresent
    have hmisfit := mem_parameterFaults_iff.2 (Misfit.unused h.1 h.2 hpresent)
    simp [hf] at hmisfit
  rw [habsent]
  rfl

/-- Accepted settings repeat what their texts say, and are those of a strategy. -/
theorem mirrors_of_readReenqueue (h : readReenqueue s = .ok r) :
    Mirrors s.get? r ∧
      ∃ strategy : Strategy, strategy ≠ .sequential [] ∧ strategy.settings = r := by
  obtain ⟨type, htype, hf, hread⟩ := of_readReenqueue_eq_ok h
  have hselects := reenqueueType_eq_ok_iff.1 htype
  -- the parameters of the type were read, and all others are absent
  cases type with
  | manual =>
    cases hread
    refine ⟨⟨hselects, ?_, ?_, ?_, ?_, ?_⟩, .manual, by simp, rfl⟩ <;>
      exact absent_of_parameterFaults hf (by decide)
  | fixed =>
    obtain ⟨d, hd, rfl⟩ := readOne_eq_ok_iff.1 hread
    refine ⟨⟨hselects, readPresent_eq_ok_iff.1 hd, ?_, ?_, ?_, ?_⟩, .fixed d, by simp, rfl⟩ <;>
      exact absent_of_parameterFaults hf (by decide)
  | sequential =>
    obtain ⟨plan, hplan, rfl⟩ := readOne_eq_ok_iff.1 hread
    refine ⟨⟨hselects, ?_, readPresent_eq_ok_iff.1 hplan, ?_, ?_, ?_⟩, .sequential plan, ?_, rfl⟩
    case refine_5 =>
      rintro ⟨⟩
      obtain ⟨raw, -, hraw⟩ := Option.map_eq_some_iff.1 (readPresent_eq_ok_iff.1 hplan)
      exact parsePlan_ne_nil hraw
    all_goals exact absent_of_parameterFaults hf (by decide)
  | arithmetic =>
    obtain ⟨initial, step, hinitial, hstep, rfl⟩ := readTwo_eq_ok_iff.1 hread
    refine ⟨⟨hselects, ?_, ?_, readPresent_eq_ok_iff.1 hinitial, readPresent_eq_ok_iff.1 hstep, ?_⟩,
      .arithmetic initial step, by simp, rfl⟩ <;>
      exact absent_of_parameterFaults hf (by decide)
  | geometric =>
    obtain ⟨initial, ratio, hinitial, hratio, rfl⟩ := readTwo_eq_ok_iff.1 hread
    refine ⟨⟨hselects, ?_, ?_, readPresent_eq_ok_iff.1 hinitial, ?_,
      readPresent_eq_ok_iff.1 hratio⟩, .geometric initial ratio, by simp, rfl⟩ <;>
      exact absent_of_parameterFaults hf (by decide)

/-- Parameters are carried exactly when their settings are there. -/
theorem isSome_iff_of_mirrors {setting : String} (h : Mirrors s.get? r)
    (hsetting : setting ∈ reenqueueParameters) :
    (s.get? setting).isSome ↔ setting ∈ r.parameters := by
  have hdelay := congrArg Option.isSome h.fixedDelay
  have hplan := congrArg Option.isSome h.sequentialPlan
  have hinitial := congrArg Option.isSome h.initialDelay
  have hstep := congrArg Option.isSome h.arithmeticStep
  have hratio := congrArg Option.isSome h.geometricRatio
  simp only [Option.isSome_map] at hdelay hplan hinitial hstep hratio
  simp only [reenqueueParameters, List.mem_cons, List.not_mem_nil, or_false] at hsetting
  rcases hsetting with rfl | rfl | rfl | rfl | rfl <;>
    simp [ReenqueueSettings.parameters, hdelay, hplan, hinitial, hstep, hratio]

theorem parametersOf_subset (type : ReenqueueRetryType) :
    parametersOf type ⊆ reenqueueParameters := by
  cases type <;> decide

theorem readParameters_of_mirrors {strategy : Strategy} (h : Mirrors s.get? strategy.settings) :
    readParameters s strategy.settings.retryType = .ok strategy.settings := by
  cases strategy with
  | manual => rfl
  | fixed delay => exact readOne_eq_ok_iff.2 ⟨delay, readPresent_eq_ok_iff.2 h.fixedDelay, rfl⟩
  | sequential plan =>
    exact readOne_eq_ok_iff.2 ⟨plan, readPresent_eq_ok_iff.2 h.sequentialPlan, rfl⟩
  | arithmetic initial step =>
    exact readTwo_eq_ok_iff.2 ⟨initial, step, readPresent_eq_ok_iff.2 h.initialDelay,
      readPresent_eq_ok_iff.2 h.arithmeticStep, rfl⟩
  | geometric initial ratio =>
    exact readTwo_eq_ok_iff.2 ⟨initial, ratio, readPresent_eq_ok_iff.2 h.initialDelay,
      readPresent_eq_ok_iff.2 h.geometricRatio, rfl⟩

/-- Texts that repeat the settings of a strategy are never refused. -/
theorem readReenqueue_of_mirrors {strategy : Strategy} (hne : strategy ≠ .sequential [])
    (h : Mirrors s.get? strategy.settings) : readReenqueue s = .ok strategy.settings := by
  have htype := reenqueueType_eq_ok_iff.2 h.selects
  have hf : parameterFaults s strategy.settings.retryType = [] := by
    rw [List.eq_nil_iff_forall_not_mem]
    intro f hf
    cases mem_parameterFaults_iff.1 hf with
    | lacking needed absent =>
      have hpresent := (isSome_iff_of_mirrors h (parametersOf_subset _ needed)).2
        (strategy.parameters_settings ▸ needed)
      exact Option.isSome_iff_ne_none.1 hpresent absent
    | unused parameter foreign present =>
      have hcarried := (isSome_iff_of_mirrors h parameter).1 (Option.isSome_iff_ne_none.2 present)
      exact foreign (strategy.parameters_settings ▸ hcarried)
  rw [readReenqueue_of_parameters htype hf, readParameters_of_mirrors h]
  simp only [Except.bind, Strategy.validate_settings hne]

end Section

/-! ### Accepted configurations -/

section Texts

variable {raw raw' : String → Option String} {type : ReenqueueRetryType} {r : ReenqueueSettings}
  {f : SettingFault}

theorem Selects.congr (h : ∀ name, name ≠ "" → raw name = raw' name) (hs : Selects raw type) :
    Selects raw' type := by
  rwa [Selects, ← h _ (by decide)]

theorem Mirrors.congr (h : ∀ name, name ≠ "" → raw name = raw' name) (hm : Mirrors raw r) :
    Mirrors raw' r where
  selects := hm.selects.congr h
  fixedDelay := by rw [← h _ (by decide)]; exact hm.fixedDelay
  sequentialPlan := by rw [← h _ (by decide)]; exact hm.sequentialPlan
  initialDelay := by rw [← h _ (by decide)]; exact hm.initialDelay
  arithmeticStep := by rw [← h _ (by decide)]; exact hm.arithmeticStep
  geometricRatio := by rw [← h _ (by decide)]; exact hm.geometricRatio

theorem Misfit.congr (h : ∀ name, name ≠ "" → raw name = raw' name) (hm : Misfit raw type f) :
    Misfit raw' type f := by
  cases hm with
  | lacking needed absent =>
    refine .lacking needed ((h _ ?_).symm.trans absent)
    rintro rfl
    cases type <;> simp [Section.parametersOf] at needed
  | unused parameter foreign present =>
    refine .unused parameter foreign ((h _ ?_) ▸ present)
    rintro rfl
    simp [Section.reenqueueParameters] at parameter

end Texts

variable {keyPrefix : String} {properties : Dict String} {c : QueueConfig}
  {configs : List QueueConfig} {queue : QueueId}

/-- The re-enqueue settings of an accepted configuration repeat the texts of its queue, and are
those of a strategy. -/
theorem mirrors_of_mem_configs (h : parseReported keyPrefix properties = .ok configs)
    (hc : c ∈ configs) :
    Mirrors (textOf keyPrefix properties c.location.queue) c.settings.reenqueue ∧
      ∃ strategy : Strategy, strategy ≠ .sequential [] ∧
        strategy.settings = c.settings.reenqueue := by
  obtain ⟨hqueue, hparse⟩ := of_mem_configs h hc
  obtain ⟨-, table, reenqueue, -, hreenqueue, hconfig⟩ :=
    Section.parse_eq_ok_iff.1 (parseQueue_eq_ok_iff.1 hparse)
  obtain ⟨hmirrors, hstrategy⟩ := Section.mirrors_of_readReenqueue hreenqueue
  have hsettings : c.settings.reenqueue = reenqueue := by rw [hconfig]; rfl
  rw [hsettings]
  exact ⟨hmirrors.congr fun name hname => get?_sectionOf hqueue hname, hstrategy⟩

/-- A fault of the re-enqueue parameters of a queue is reported. -/
theorem parseReported_of_misfit {type : ReenqueueRetryType} {f : SettingFault}
    (hqueue : Occurs keyPrefix properties queue)
    (hselects : Selects (textOf keyPrefix properties queue) type)
    (hmisfit : Misfit (textOf keyPrefix properties queue) type f) :
    ∃ lines, parseReported keyPrefix properties = .error (.invalid lines) ∧
      (Problem.setting queue f).line keyPrefix ∈ lines := by
  have htexts : ∀ name, name ≠ "" → textOf keyPrefix properties queue name
      = (sectionOf keyPrefix properties queue).get? name :=
    fun name hname => (get?_sectionOf hqueue hname).symm
  have htype := Section.reenqueueType_eq_ok_iff.2 (hselects.congr htexts)
  have hf := Section.mem_parameterFaults_iff.2 (hmisfit.congr htexts)
  have hread := Section.readReenqueue_of_parameterFaults htype (List.ne_nil_of_mem hf)
  refine parseReported_of_mem_problems (mem_problems_of_mem_allFaults hqueue ?_)
  refine List.mem_append_right _ ?_
  simpa only [Section.reenqueueFaults, hread] using hf

/-- **Accepted re-enqueue settings always make a strategy.** They have the selected type and
exactly its parameters, each with the value of its text; they are valid and build a strategy with
just these parameters, and a strategy that is not manual has a delay for every attempt, one of the
plan if there is a plan. A queue whose selected type lacks a parameter, or which has a parameter
that the type has no use for, is reported for it; one whose texts repeat the settings of a strategy
is read as these settings. -/
theorem accepted_settings_make_strategies (keyPrefix : String) (properties : Dict String) :
    (∀ configs, parseReported keyPrefix properties = .ok configs → ∀ c ∈ configs,
      Mirrors (textOf keyPrefix properties c.location.queue) c.settings.reenqueue ∧
      c.settings.reenqueue.parameters = Section.parametersOf c.settings.reenqueue.retryType ∧
      c.settings.reenqueue.sequentialPlan ≠ some [] ∧
      c.settings.reenqueue.validate = .ok () ∧
      ∃ strategy, Strategy.ofSettings c.settings.reenqueue = .ok strategy ∧
        strategy.settings = c.settings.reenqueue ∧
        (c.settings.reenqueue.retryType ≠ .manual → ∀ attempt, ∃ d,
          strategy.delay attempt = .ok d ∧
            ∀ plan, c.settings.reenqueue.sequentialPlan = some plan → d ∈ plan)) ∧
    (∀ queue type f, Occurs keyPrefix properties queue →
      Selects (textOf keyPrefix properties queue) type →
      Misfit (textOf keyPrefix properties queue) type f →
      ∃ lines, parseReported keyPrefix properties = .error (.invalid lines) ∧
        (Problem.setting queue f).line keyPrefix ∈ lines) ∧
    ∀ queue (strategy : Strategy), Occurs keyPrefix properties queue →
      strategy ≠ .sequential [] →
      Mirrors (textOf keyPrefix properties queue) strategy.settings →
      (sectionOf keyPrefix properties queue).readReenqueue = .ok strategy.settings := by
  refine ⟨fun configs h c hc => ?_, fun queue type f => parseReported_of_misfit,
    fun queue strategy hqueue hne hmirrors => Section.readReenqueue_of_mirrors hne
      (hmirrors.congr fun name hname => (get?_sectionOf hqueue hname).symm)⟩
  obtain ⟨hmirrors, strategy, hne, hsettings⟩ := mirrors_of_mem_configs h hc
  rw [← hsettings] at hmirrors ⊢
  exact ⟨hmirrors, strategy.parameters_settings, Strategy.sequentialPlan_settings hne,
    Strategy.validate_settings hne, strategy, Strategy.ofSettings_settings hne, rfl,
    Strategy.exists_delay hne⟩

/-- A queue with a plan of delays. -/
def planned : Dict String :=
  .ofList [("tq.orders.table", "jobs"), ("tq.orders.reenqueue-retry-type", "sequential"),
    ("tq.orders.reenqueue-retry-plan", "PT1S, PT5S")]

/-- A queue whose re-enqueue type lacks its parameter and has one that it has no use for. -/
def unplanned : Dict String :=
  .ofList [("tq.orders.table", "jobs"), ("tq.orders.reenqueue-retry-type", "fixed"),
    ("tq.orders.reenqueue-retry-plan", "PT1S, PT5S")]

theorem planned_and_unplanned :
    (∃ strategy, Strategy.ofSettings (.sequential [.ofMillis 1000, .ofMillis 5000]) = .ok strategy ∧
      strategy.settings = .sequential [.ofMillis 1000, .ofMillis 5000] ∧
      ∃ d, strategy.delay (.clamp 7) = .ok d ∧ d ∈ [Delay.ofMillis 1000, .ofMillis 5000]) ∧
    (∀ f ∈ [(⟨"reenqueue-retry-delay", .requiredByType⟩ : SettingFault),
        ⟨"reenqueue-retry-plan", .unusedByType⟩],
      ∃ lines, parseReported "tq" unplanned = .error (.invalid lines) ∧
        (Problem.setting "orders" f).line "tq" ∈ lines) ∧
    (sectionOf "tq" planned "orders").readReenqueue
      = .ok (.sequential [.ofMillis 1000, .ofMillis 5000]) := by
  refine ⟨?planned, ?unplanned, ?mirrored⟩
  case planned =>
    have hparse : parseReported "tq" planned = .ok [⟨.of "orders" "jobs",
        { reenqueue := .sequential [.ofMillis 1000, .ofMillis 5000] }⟩] := by decide +kernel
    obtain ⟨-, -, -, -, strategy, hstrategy, hsettings, hdelay⟩ :=
      (accepted_settings_make_strategies "tq" planned).1 _ hparse _ (List.mem_singleton_self _)
    obtain ⟨d, hd, hmem⟩ := hdelay (by decide) (.clamp 7)
    exact ⟨strategy, hstrategy, hsettings, d, hd, hmem _ rfl⟩
  case unplanned =>
    have hqueue : Occurs "tq" unplanned "orders" := mem_queueIds_iff.1 (by decide +kernel)
    have hselects : Selects (textOf "tq" unplanned "orders") .fixed := .inl (by decide +kernel)
    have hlacking : Misfit (textOf "tq" unplanned "orders") .fixed
        ⟨"reenqueue-retry-delay", .requiredByType⟩ := .lacking (by decide) (by decide +kernel)
    have hunused : Misfit (textOf "tq" unplanned "orders") .fixed
        ⟨"reenqueue-retry-plan", .unusedByType⟩ :=
      .unused (by decide) (by decide) (by decide +kernel)
    intro f hf
    refine (accepted_settings_make_strategies "tq" unplanned).2.1 _ _ f hqueue hselects ?_
    rcases List.mem_pair.1 hf with rfl | rfl
    · exact hlacking
    · exact hunused
  case mirrored =>
    have hqueue : Occurs "tq" planned "orders" := mem_queueIds_iff.1 (by decide +kernel)
    have hmirrors : Mirrors (textOf "tq" planned "orders")
        (Strategy.sequential [.ofMillis 1000, .ofMillis 5000]).settings :=
      ⟨.inl (by decide +kernel), by decide +kernel, by decide +kernel, by decide +kernel,
        by decide +kernel, by decide +kernel⟩
    exact (accepted_settings_make_strategies "tq" planned).2.2 _ _ hqueue (by decide) hmirrors

end Config

end DurableQueue
