import DurableQueue.Proofs.Config.Keys
import DurableQueue.Proofs.Config.Section
import Mathlib.Data.List.Sort

/-!
# Reading queue by queue

To read a configuration is to read each of its queues by itself: none hides, drops or repeats
another.

* `alone` is a queue by itself, and `textOf` are the texts of its settings;
* `parse_eq_ok_iff` and `parse_eq_error_iff` say what comes of all queues from what comes of each,
  and `parse_alone` what comes of a queue by itself;
* `parse_congr`: keys outside the prefix do not matter;
* `Census` lists the malformed keys and the queues, and `read_queue_by_queue` is the main statement.
-/

namespace DurableQueue.Config

variable {keyPrefix key name : String} {queue : QueueId} {properties properties' : Dict String}

/-! ### Parts of a configuration -/

/-- A queue has settings among some properties. -/
def Occurs (keyPrefix : String) (properties : Dict String) (queue : QueueId) : Prop :=
  ∃ key ∈ properties.keys, IsOf keyPrefix queue key

/-- The properties of one queue. -/
def alone (keyPrefix : String) (properties : Dict String) (queue : QueueId) : Dict String :=
  properties.restrict (IsOf keyPrefix queue)

theorem mem_queueIds_iff :
    queue ∈ queueIds keyPrefix properties ↔ Occurs keyPrefix properties queue := by
  simp only [queueIds, Dict.mem_keys_ofList, List.mem_filterMap, Occurs, IsOf,
    ← roleOf_eq_setting_iff]
  constructor
  · rintro ⟨u, key, hkey, h⟩
    split at h
    next q name hrole => cases h; exact ⟨key, hkey, name, hrole⟩
    · cases h
  · rintro ⟨key, hkey, name, hrole⟩
    exact ⟨(), key, hkey, by simp only [hrole]⟩

/-- The setting of a queue that a property is, with its text. -/
def settingOf? (keyPrefix : String) (queue : QueueId) (e : String × String) :
    Option (String × String) :=
  match roleOf keyPrefix e.1 with
  | .setting q name => if q = queue then some (name, e.2) else none
  | _ => none

theorem sectionOf_eq : sectionOf keyPrefix properties queue
    = .ofList (properties.entries.filterMap (settingOf? keyPrefix queue)) := rfl

theorem settingOf?_eq_some_iff {value value' : String} :
    settingOf? keyPrefix queue (key, value) = some (name, value') ↔
      IsSetting keyPrefix queue name key ∧ value = value' := by
  rw [settingOf?, ← roleOf_eq_setting_iff]
  cases roleOf keyPrefix key with
  | setting q n => by_cases hq : q = queue <;> simp [hq]
  | _ => simp

theorem sectionOf_alone :
    sectionOf keyPrefix (alone keyPrefix properties queue) queue
      = sectionOf keyPrefix properties queue := by
  refine congrArg Dict.ofList (Dict.filterMap_entries_restrict properties fun e he => ?_)
  exact Option.eq_none_iff_forall_ne_some.2 fun ⟨name, value⟩ hsetting =>
    he ⟨name, (settingOf?_eq_some_iff.1 hsetting).1⟩

/-- The text of a setting of a queue. -/
def textOf (keyPrefix : String) (properties : Dict String) (queue : QueueId) (name : String) :
    Option String :=
  properties.get? (keyPrefix ++ "." ++ queue ++ "." ++ name)

/-- The section of a queue holds the texts of its settings. -/
theorem get?_sectionOf (hqueue : Occurs keyPrefix properties queue) (hname : name ≠ "") :
    (sectionOf keyPrefix properties queue).get? name = textOf keyPrefix properties queue name := by
  obtain ⟨_, _, _, hset⟩ := hqueue
  have hmem : ∀ value,
      (name, value) ∈ properties.entries.filterMap (settingOf? keyPrefix queue) ↔
        textOf keyPrefix properties queue name = some value := by
    intro value
    rw [List.mem_filterMap, textOf, ← Dict.mem_entries_iff]
    constructor
    · rintro ⟨⟨key, value'⟩, hentry, hsetting⟩
      obtain ⟨hkey, rfl⟩ := settingOf?_eq_some_iff.1 hsetting
      exact hkey.key_eq ▸ hentry
    · intro hentry
      exact ⟨_, hentry, settingOf?_eq_some_iff.2
        ⟨⟨rfl, hset.queue_ne, hset.queue_dotless, hname⟩, rfl⟩⟩
  ext value
  rw [sectionOf_eq, Dict.get?_ofList_eq_some_iff, hmem]
  -- no two keys of one queue have the same setting
  intro w hw hvalue
  rw [hmem] at hw hvalue
  exact Option.some.inj (hw.symm.trans hvalue)

theorem parseQueue_alone :
    parseQueue keyPrefix (alone keyPrefix properties queue) queue
      = parseQueue keyPrefix properties queue := by
  rw [parseQueue, sectionOf_alone, parseQueue]

theorem malformedKeys_alone : malformedKeys keyPrefix (alone keyPrefix properties queue) = [] := by
  refine List.filterMap_eq_nil_iff.2 fun key hkey => ?_
  obtain ⟨name, hset⟩ := (Dict.mem_keys_restrict.1 hkey).2
  simp only [roleOf_of_isSetting hset]

theorem queueIds_ascending : (queueIds keyPrefix properties).Pairwise (· < ·) :=
  Dict.keys_ascending _

theorem nodup_queueIds : (queueIds keyPrefix properties).Nodup := queueIds_ascending.nodup

theorem queueIds_alone (h : Occurs keyPrefix properties queue) :
    queueIds keyPrefix (alone keyPrefix properties queue) = [queue] := by
  refine List.Pairwise.eq_of_mem_iff queueIds_ascending (List.pairwise_singleton _ _) fun q => ?_
  rw [mem_queueIds_iff, List.mem_singleton]
  constructor
  · rintro ⟨key, hkey, hq⟩
    have hqueue : IsOf keyPrefix queue key := (Dict.mem_keys_restrict.1 hkey).2
    exact Option.some.inj
      ((queue?_roleOf_eq_some_iff.2 hq).symm.trans (queue?_roleOf_eq_some_iff.2 hqueue))
  · rintro rfl
    obtain ⟨key, hkey, hq⟩ := h
    exact ⟨key, Dict.mem_keys_restrict.2 ⟨hkey, hq⟩, hq⟩

/-! ### All queues and each -/

theorem parseQueue_ne_error_nil : parseQueue keyPrefix properties queue ≠ .error [] := by
  unfold parseQueue
  split
  · simp
  next fs hparse =>
    have hne := (Section.parse_eq_error_iff.1 hparse).2
    simpa using hne

theorem parseQueue_eq_ok_iff {c : QueueConfig} :
    parseQueue keyPrefix properties queue = .ok c ↔
      (sectionOf keyPrefix properties queue).parse queue = .ok c := by
  rw [parseQueue]
  split <;> simp_all

/-- The problems of a queue are the faults of its section. -/
theorem problemsOf_parseQueue : problemsOf (parseQueue keyPrefix properties queue)
    = (sectionOf keyPrefix properties queue).allFaults.map (.setting queue) := by
  by_cases h : (sectionOf keyPrefix properties queue).allFaults = []
  · obtain ⟨table, reenqueue, htable, hreenqueue⟩ := Section.of_allFaults_eq_nil h
    have hparse : parseQueue keyPrefix properties queue = .ok _ :=
      parseQueue_eq_ok_iff.2 (Section.parse_eq_ok_iff.2
        ⟨h, table, reenqueue, htable, hreenqueue, rfl⟩)
    rw [hparse, h]
    rfl
  · simp [parseQueue, Section.parse_of_allFaults_ne_nil h, problemsOf]

theorem problemsOf_parseQueue_eq_nil_iff :
    problemsOf (parseQueue keyPrefix properties queue) = [] ↔
      ∃ c, parseQueue keyPrefix properties queue = .ok c := by
  cases hparse : parseQueue keyPrefix properties queue with
  | ok c => simp [problemsOf]
  | error ps =>
    have hne : ps ≠ [] := fun hps => parseQueue_ne_error_nil (hps ▸ hparse)
    simp [problemsOf, hne]

/-- All problems: the malformed keys, then the problems of each queue. -/
def problems (keyPrefix : String) (properties : Dict String) : List Problem :=
  malformedKeys keyPrefix properties ++
    (queueIds keyPrefix properties).flatMap fun queue =>
      problemsOf (parseQueue keyPrefix properties queue)

theorem parse_eq : parse keyPrefix properties =
    match problems keyPrefix properties with
    | [] => .ok (((queueIds keyPrefix properties).map (parseQueue keyPrefix properties)).filterMap
        resultOf?)
    | ps => .error ps := by
  have hproblems : problems keyPrefix properties = malformedKeys keyPrefix properties ++
      ((queueIds keyPrefix properties).map (parseQueue keyPrefix properties)).flatMap
        problemsOf := by
    rw [problems, List.flatMap_map]
  rw [hproblems]
  rfl

theorem problems_eq_nil_iff : problems keyPrefix properties = [] ↔
    malformedKeys keyPrefix properties = [] ∧
      ∀ queue, Occurs keyPrefix properties queue →
        ∃ c, parseQueue keyPrefix properties queue = .ok c := by
  simp only [problems, List.append_eq_nil_iff, List.flatMap_eq_nil_iff, mem_queueIds_iff,
    problemsOf_parseQueue_eq_nil_iff]

/-- A configuration with problems is refused with all of them. -/
theorem parse_eq_error_iff {ps : List Problem} : parse keyPrefix properties = .error ps ↔
    ps = problems keyPrefix properties ∧ ps ≠ [] := by
  rw [parse_eq]
  cases problems keyPrefix properties with
  | nil =>
    refine iff_of_false (by simp) ?_
    rintro ⟨rfl, hne⟩
    exact hne rfl
  | cons p rest =>
    constructor
    · rintro ⟨⟩
      exact ⟨rfl, List.cons_ne_nil p rest⟩
    · rintro ⟨rfl, -⟩
      rfl

theorem resultOf?_eq_some_iff {α : Type} {x : Except (List Problem) α} {a : α} :
    resultOf? x = some a ↔ x = .ok a := by
  cases x <;> simp [resultOf?]

/-- Readings that all succeed have one result each. -/
theorem forall₂_resultOf {α β : Type} {f : α → Except (List Problem) β} {as : List α}
    {bs : List β} : List.Forall₂ (fun a b => f a = .ok b) as bs ↔
      (∀ a ∈ as, ∃ b, f a = .ok b) ∧ bs = (as.map f).filterMap resultOf? := by
  induction as generalizing bs with
  | nil => simp
  | cons a as ih =>
    simp only [List.forall₂_cons_left_iff, ih, List.map_cons, List.forall_mem_cons]
    constructor
    · rintro ⟨b, bs, hb, ⟨has, rfl⟩, rfl⟩
      exact ⟨⟨⟨b, hb⟩, has⟩, by rw [hb]; rfl⟩
    · rintro ⟨⟨⟨b, hb⟩, has⟩, rfl⟩
      exact ⟨b, _, hb, ⟨has, rfl⟩, by rw [hb]; rfl⟩

/-- A configuration without problems is accepted, and consists of what each queue gives. -/
theorem parse_eq_ok_iff {configs : List QueueConfig} : parse keyPrefix properties = .ok configs ↔
    malformedKeys keyPrefix properties = [] ∧
      List.Forall₂ (fun queue c => parseQueue keyPrefix properties queue = .ok c)
        (queueIds keyPrefix properties) configs := by
  -- a queue without problems has a result, so that `resultOf?` leaves no queue out
  have hnil : problems keyPrefix properties = [] ↔ _ := problems_eq_nil_iff
  simp only [← mem_queueIds_iff] at hnil
  rw [forall₂_resultOf, ← and_assoc, ← hnil, parse_eq]
  cases problems keyPrefix properties with
  | nil => simp [eq_comm]
  | cons p rest => simp

/-- What comes of a queue by itself. -/
theorem parse_alone (h : Occurs keyPrefix properties queue) :
    parse keyPrefix (alone keyPrefix properties queue)
      = (parseQueue keyPrefix properties queue).map fun c => [c] := by
  simp only [parse, malformedKeys_alone, queueIds_alone h, List.map_cons, List.map_nil,
    parseQueue_alone, List.flatMap_cons, List.flatMap_nil, List.append_nil, List.nil_append]
  cases hparse : parseQueue keyPrefix properties queue with
  | ok c => rfl
  | error ps =>
    -- without a problem the queue would be left out here
    cases ps with
    | nil => exact absurd hparse parseQueue_ne_error_nil
    | cons p rest => rfl

/-- The properties below a prefix. -/
def underPrefix (keyPrefix : String) (properties : Dict String) : Dict String :=
  properties.restrict fun key => roleOf keyPrefix key ≠ .foreign

theorem parseQueue_underPrefix :
    parseQueue keyPrefix (underPrefix keyPrefix properties) queue
      = parseQueue keyPrefix properties queue := by
  have hsection : sectionOf keyPrefix (underPrefix keyPrefix properties) queue
      = sectionOf keyPrefix properties queue :=
    congrArg Dict.ofList
      (Dict.filterMap_entries_restrict properties fun e he => by simp only [not_not.1 he])
  rw [parseQueue, hsection, parseQueue]

/-- Keys outside the prefix are passed over. -/
theorem parse_underPrefix :
    parse keyPrefix (underPrefix keyPrefix properties) = parse keyPrefix properties := by
  have hmalformed : malformedKeys keyPrefix (underPrefix keyPrefix properties)
      = malformedKeys keyPrefix properties :=
    Dict.filterMap_keys_restrict properties fun key hkey => by simp only [not_not.1 hkey]
  have hqueues : queueIds keyPrefix (underPrefix keyPrefix properties)
      = queueIds keyPrefix properties :=
    congrArg (fun es => (Dict.ofList es).keys)
      (Dict.filterMap_keys_restrict properties fun key hkey => by simp only [not_not.1 hkey])
  have hqueue : parseQueue keyPrefix (underPrefix keyPrefix properties)
      = parseQueue keyPrefix properties := funext fun _ => parseQueue_underPrefix
  rw [parse, hmalformed, hqueues, hqueue, parse]

/-- Properties that agree below the prefix are the same configuration. -/
theorem parse_congr
    (h : ∀ key, Below keyPrefix key → properties'.get? key = properties.get? key) :
    parse keyPrefix properties' = parse keyPrefix properties := by
  have hsame : underPrefix keyPrefix properties' = underPrefix keyPrefix properties :=
    Dict.restrict_congr fun key hkey =>
      h key (not_not.1 fun hbelow => hkey (roleOf_eq_foreign_iff.2 hbelow))
  rw [← parse_underPrefix, hsame, parse_underPrefix]

/-! ### The census of a configuration -/

/-- The malformed keys and the queues of a configuration, both in ascending order. -/
structure Census (keyPrefix : String) (properties : Dict String) (malformed : List String)
    (queues : List QueueId) : Prop where
  malformed_ascending : malformed.Pairwise (· < ·)
  mem_malformed_iff : ∀ key, key ∈ malformed ↔
    key ∈ properties.keys ∧ Below keyPrefix key ∧ ∀ queue, ¬ IsOf keyPrefix queue key
  queues_ascending : queues.Pairwise (· < ·)
  mem_queues_iff : ∀ queue, queue ∈ queues ↔ Occurs keyPrefix properties queue

/-- The keys below the prefix that are no settings. -/
def strays (keyPrefix : String) (properties : Dict String) : List String :=
  properties.keys.filter fun key => roleOf keyPrefix key = .malformed

theorem malformedKeys_eq :
    malformedKeys keyPrefix properties = (strays keyPrefix properties).map .malformedKey := by
  rw [malformedKeys, strays, ← List.filterMap_eq_map, List.filterMap_filter]
  refine List.filterMap_congr fun key _ => ?_
  cases roleOf keyPrefix key <;> simp

theorem census (keyPrefix : String) (properties : Dict String) :
    Census keyPrefix properties (strays keyPrefix properties)
      (queueIds keyPrefix properties) where
  malformed_ascending := properties.keys_ascending.filter _
  mem_malformed_iff key := by
    simp [strays, roleOf_eq_malformed_iff, IsOf]
  queues_ascending := queueIds_ascending
  mem_queues_iff _ := mem_queueIds_iff

theorem malformedKeys_eq_nil_iff : malformedKeys keyPrefix properties = [] ↔
    ∀ key ∈ properties.keys, Below keyPrefix key → ∃ queue, IsOf keyPrefix queue key := by
  rw [malformedKeys_eq, List.map_eq_nil_iff, List.eq_nil_iff_forall_not_mem]
  simp only [(census keyPrefix properties).mem_malformed_iff]
  grind

/-! ### What is reported -/

/-- The lines in which a refused configuration reports its problems. -/
def reported {α : Type} : Except ConfigError α → List String
  | .error (.invalid lines) => lines
  | _ => []

theorem parseReported_eq_ok_iff {configs : List QueueConfig} :
    parseReported keyPrefix properties = .ok configs ↔
      parse keyPrefix properties = .ok configs := by
  unfold parseReported
  split <;> simp_all

/-- A refused configuration reports all its problems. -/
theorem eq_invalid_of_parseReported {e : ConfigError}
    (h : parseReported keyPrefix properties = .error e) :
    e = .invalid ((problems keyPrefix properties).map (Problem.line keyPrefix)) := by
  unfold parseReported at h
  split at h
  · cases h
  next ps hparse =>
    cases h
    rw [(parse_eq_error_iff.1 hparse).1]

theorem parseReported_eq_error_iff {e : ConfigError} :
    parseReported keyPrefix properties = .error e ↔
      e = .invalid ((problems keyPrefix properties).map (Problem.line keyPrefix)) ∧
        problems keyPrefix properties ≠ [] := by
  constructor
  · intro h
    refine ⟨eq_invalid_of_parseReported h, fun hnil => ?_⟩
    rw [parseReported, parse_eq, hnil] at h
    cases h
  · rintro ⟨rfl, hne⟩
    rw [parseReported, parse_eq_error_iff.2 ⟨rfl, hne⟩]

/-- A problem is reported. -/
theorem parseReported_of_mem_problems {p : Problem} (h : p ∈ problems keyPrefix properties) :
    ∃ lines, parseReported keyPrefix properties = .error (.invalid lines) ∧
      p.line keyPrefix ∈ lines := by
  have hparse : parse keyPrefix properties = .error (problems keyPrefix properties) :=
    parse_eq_error_iff.2 ⟨rfl, List.ne_nil_of_mem h⟩
  exact ⟨_, by rw [parseReported, hparse], List.mem_map_of_mem h⟩

/-- The faults of the section of a queue are problems. -/
theorem mem_problems_of_mem_allFaults {f : SettingFault}
    (hqueue : Occurs keyPrefix properties queue)
    (h : f ∈ (sectionOf keyPrefix properties queue).allFaults) :
    .setting queue f ∈ problems keyPrefix properties := by
  refine List.mem_append_right _ (List.mem_flatMap.2 ⟨queue, mem_queueIds_iff.2 hqueue, ?_⟩)
  rw [problemsOf_parseQueue]
  exact List.mem_map_of_mem h

theorem parseReported_alone (h : Occurs keyPrefix properties queue) :
    parseReported keyPrefix (alone keyPrefix properties queue) =
      match parseQueue keyPrefix properties queue with
      | .ok c => .ok [c]
      | .error ps => .error (.invalid (ps.map (Problem.line keyPrefix))) := by
  rw [parseReported, parse_alone h]
  cases parseQueue keyPrefix properties queue <;> rfl

theorem reported_alone (h : Occurs keyPrefix properties queue) :
    reported (parseReported keyPrefix (alone keyPrefix properties queue)) =
      (problemsOf (parseQueue keyPrefix properties queue)).map (Problem.line keyPrefix) := by
  rw [parseReported_alone h]
  cases parseQueue keyPrefix properties queue <;> rfl

theorem parseReported_alone_eq_ok_iff (h : Occurs keyPrefix properties queue)
    {c : QueueConfig} : parseReported keyPrefix (alone keyPrefix properties queue) = .ok [c] ↔
      parseQueue keyPrefix properties queue = .ok c := by
  rw [parseReported_alone h]
  cases parseQueue keyPrefix properties queue <;> simp

theorem queue_of_parseQueue {c : QueueConfig}
    (h : parseQueue keyPrefix properties queue = .ok c) : c.location.queue = queue := by
  obtain ⟨-, table, reenqueue, -, -, rfl⟩ := Section.parse_eq_ok_iff.1 (parseQueue_eq_ok_iff.1 h)
  simp only [Section.configOf, Section.location]
  split <;> rfl

/-- The configurations of a list are those of the queues that occur, one for each. -/
theorem map_queue_of_parseReported {configs : List QueueConfig}
    (h : parseReported keyPrefix properties = .ok configs) :
    configs.map (·.location.queue) = queueIds keyPrefix properties := by
  obtain ⟨-, hconfigs⟩ := parse_eq_ok_iff.1 (parseReported_eq_ok_iff.1 h)
  have hqueues : List.Forall₂ (· = ·) (queueIds keyPrefix properties)
      (configs.map (·.location.queue)) :=
    List.forall₂_map_right_iff.2 (hconfigs.imp fun _ _ hparse => (queue_of_parseQueue hparse).symm)
  rw [List.forall₂_eq_eq_eq] at hqueues
  exact hqueues.symm

/-- Each configuration of a list is that of a queue that occurs. -/
theorem of_mem_configs {configs : List QueueConfig} {c : QueueConfig}
    (h : parseReported keyPrefix properties = .ok configs) (hc : c ∈ configs) :
    Occurs keyPrefix properties c.location.queue ∧
      parseQueue keyPrefix properties c.location.queue = .ok c := by
  obtain ⟨-, hconfigs⟩ := parse_eq_ok_iff.1 (parseReported_eq_ok_iff.1 h)
  rw [(forall₂_resultOf.1 hconfigs).2] at hc
  obtain ⟨x, hx, hresult⟩ := List.mem_filterMap.1 hc
  obtain ⟨queue, hqueue, rfl⟩ := List.mem_map.1 hx
  have hparse := resultOf?_eq_some_iff.1 hresult
  rw [queue_of_parseQueue hparse]
  exact ⟨mem_queueIds_iff.1 hqueue, hparse⟩

theorem exists_parseReported_eq_ok_iff :
    (∃ configs, parseReported keyPrefix properties = .ok configs) ↔
      (∀ key ∈ properties.keys, Below keyPrefix key → ∃ queue, IsOf keyPrefix queue key) ∧
      ∀ queue, Occurs keyPrefix properties queue →
        ∃ c, parseQueue keyPrefix properties queue = .ok c := by
  rw [← malformedKeys_eq_nil_iff, ← problems_eq_nil_iff]
  simp only [parseReported_eq_ok_iff, parse_eq]
  cases problems keyPrefix properties <;> simp

/-- **Reading a configuration is reading each queue by itself.** Keys outside the prefix do not
matter. A configuration is accepted exactly when all keys below the prefix are settings of queues
and each queue is accepted by itself. An accepted one has the configuration of each queue that
occurs, in ascending order, as the queue has it by itself; a refused one reports the malformed keys
in ascending order, then in ascending order what each queue reports by itself. -/
theorem read_queue_by_queue (keyPrefix : String) (properties : Dict String) :
    (∀ properties', (∀ key, Below keyPrefix key → properties'.get? key = properties.get? key) →
      parseReported keyPrefix properties' = parseReported keyPrefix properties) ∧
    ((∃ configs, parseReported keyPrefix properties = .ok configs) ↔
      (∀ key ∈ properties.keys, Below keyPrefix key → ∃ queue, IsOf keyPrefix queue key) ∧
      ∀ queue, Occurs keyPrefix properties queue →
        ∃ configs, parseReported keyPrefix (alone keyPrefix properties queue) = .ok configs) ∧
    ∃ malformed queues, Census keyPrefix properties malformed queues ∧
      (∀ configs, parseReported keyPrefix properties = .ok configs →
        List.Forall₂ (fun queue c => c.location.queue = queue ∧
          parseReported keyPrefix (alone keyPrefix properties queue) = .ok [c]) queues configs) ∧
      ∀ e, parseReported keyPrefix properties = .error e →
        e = .invalid (malformed.map (fun key => (Problem.malformedKey key).line keyPrefix) ++
          queues.flatMap fun queue =>
            reported (parseReported keyPrefix (alone keyPrefix properties queue))) := by
  refine ⟨fun properties' h => ?_, ?_, _, _, census keyPrefix properties, ?_, ?_⟩
  · rw [parseReported, parse_congr h, parseReported]
  · rw [exists_parseReported_eq_ok_iff]
    refine and_congr_right fun _ => forall₂_congr fun queue hqueue => ?_
    rw [parseReported_alone hqueue]
    cases parseQueue keyPrefix properties queue <;> simp
  · intro configs h
    obtain ⟨-, hconfigs⟩ := parse_eq_ok_iff.1 (parseReported_eq_ok_iff.1 h)
    rw [List.forall₂_iff_zip] at hconfigs ⊢
    refine ⟨hconfigs.1, fun hmem => ?_⟩
    have hqueue := hconfigs.2 hmem
    exact ⟨queue_of_parseQueue hqueue,
      (parseReported_alone_eq_ok_iff (mem_queueIds_iff.1 (List.of_mem_zip hmem).1)).2 hqueue⟩
  · intro e h
    rw [eq_invalid_of_parseReported h, problems, malformedKeys_eq, List.map_append, List.map_map,
      List.map_flatMap]
    exact congrArg _ (congrArg _ (List.flatMap_congr fun queue hmem =>
      (reported_alone (mem_queueIds_iff.1 hmem)).symm))

/-- Two queues with default settings, and a property of something else. -/
def twoQueues : Dict String :=
  .ofList [("tq.orders.table", "jobs"), ("http.port", "80"), ("tq.mail.table", "letters")]

/-- A key without a setting, and a queue without a table. -/
def notQuiteQueues : Dict String :=
  .ofList [("tq.orders", "jobs"), ("tq.mail.colour", "red")]

theorem accepted_and_refused_queues :
    parseReported "tq" (twoQueues.insert "http.port" "8080") = parseReported "tq" twoQueues ∧
    (∃ malformed queues, Census "tq" twoQueues malformed queues ∧
      List.Forall₂ (fun queue c => c.location.queue = queue ∧
        parseReported "tq" (alone "tq" twoQueues queue) = .ok [c]) queues
        [⟨.of "mail" "letters", {}⟩, ⟨.of "orders" "jobs", {}⟩]) ∧
    ∃ malformed queues, Census "tq" notQuiteQueues malformed queues ∧
      (malformed.map fun key => (Problem.malformedKey key).line "tq") ++
        (queues.flatMap fun queue =>
          reported (parseReported "tq" (alone "tq" notQuiteQueues queue))) =
        ["tq.orders: expected tq.<queue id>.<setting>",
          "tq.mail.colour: unknown setting", "tq.mail.table: setting is required"] := by
  obtain ⟨hforeign, -, malformed, queues, hcensus, haccepted, -⟩ :=
    read_queue_by_queue "tq" twoQueues
  obtain ⟨-, -, malformed', queues', hcensus', -, hrefused⟩ :=
    read_queue_by_queue "tq" notQuiteQueues
  refine ⟨hforeign _ fun key hkey => ?_, ⟨malformed, queues, hcensus, haccepted _ ?_⟩,
    malformed', queues', hcensus', ?_⟩
  · have hport : ¬ Below "tq" "http.port" := roleOf_eq_foreign_iff.1 (by decide +kernel)
    rw [Dict.get?_insert, if_neg]
    rintro rfl
    exact hport hkey
  · decide +kernel
  · exact (ConfigError.invalid.inj (hrefused (.invalid _) (by decide +kernel))).symm

end DurableQueue.Config
