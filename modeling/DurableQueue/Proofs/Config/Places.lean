import DurableQueue.Proofs.Config.Reenqueue

/-!
# Places from a configuration

The table and the sequence of a queue are what is left of the texts of two settings. Whether a
configuration is refused is settled by these settings being there, before anything is cleaned.

* `LeftOf` and `PlacedBy` say what the names of a place are, given the texts of a queue;
* `SameButPlaces` compares configurations up to the texts that name places: sections that agree
  so have the same faults (`Section.allFaults_congr`) and configurations the same problems
  (`problems_congr`).

**Places are what is left of their texts** (`places_are_what_is_left`): a name is empty exactly when
its text has no character of a table name, and no configuration is refused for that.
-/

namespace DurableQueue.Config

open Identifier

/-! ### Names of places -/

/-- A name that is left of a text. It is empty exactly when the text has no character of a table
name. -/
structure LeftOf (text name : String) : Prop where
  eq : name = tableName text
  clean : IsTableName name
  ne_empty_iff : name ≠ "" ↔ ∃ c ∈ text.toList, isTableChar c = true

theorem leftOf_tableName (text : String) : LeftOf text (tableName text) where
  eq := rfl
  clean := isTableName_tableName text
  ne_empty_iff := by
    have hempty : tableName text = "" ↔ text.toList.filter isTableChar = [] := by
      rw [← String.toList_eq_nil_iff, tableName, String.toList_ofList]
    rw [Ne, hempty, List.filter_eq_nil_iff]
    simp

theorem rel_leftOf (text : Option String) : Option.Rel LeftOf text (text.map tableName) := by
  cases text with
  | none => exact .none
  | some text => exact .some (leftOf_tableName text)

/-- A place whose names are left of the texts of a queue. There is a text for the table, and one for
the sequence exactly when there is a sequence. -/
structure PlacedBy (raw : String → Option String) (l : Location) : Prop where
  table : Option.Rel LeftOf (raw "table") (some l.table)
  idSequence : Option.Rel LeftOf (raw "id-sequence") l.idSequence

theorem PlacedBy.congr {raw raw' : String → Option String} {l : Location}
    (h : ∀ name, name ≠ "" → raw name = raw' name) (hl : PlacedBy raw l) : PlacedBy raw' l where
  table := h "table" (by decide) ▸ hl.table
  idSequence := h "id-sequence" (by decide) ▸ hl.idSequence

/-! ### Sections -/

/-- The settings that name places. -/
def placeSettings : List String := ["table", "id-sequence"]

namespace Section

variable {s s' : Section} {queue : QueueId} {table : String}

theorem placedBy_location (h : s.get? "table" = some table) :
    PlacedBy s.get? (s.location queue table) := by
  have htable : some (s.location queue table).table = (s.get? "table").map tableName := by
    rw [h, location]
    split <;> rfl
  have hsequence : (s.location queue table).idSequence = (s.get? "id-sequence").map tableName := by
    rw [location]
    cases s.get? "id-sequence" <;> rfl
  exact ⟨htable ▸ rel_leftOf _, hsequence ▸ rel_leftOf _⟩

theorem read_congr {α : Type} {parse : String → Except Fault α} {setting : String}
    (h : s'.get? setting = s.get? setting) : read parse s' setting = read parse s setting := by
  rw [read, h, read]

/-- Re-enqueue settings are read from the settings that carry them. -/
theorem readReenqueue_congr
    (h : ∀ name ∈ "reenqueue-retry-type" :: reenqueueParameters, s'.get? name = s.get? name) :
    readReenqueue s' = readReenqueue s := by
  have htype : s'.reenqueueType = s.reenqueueType := by
    rw [reenqueueType, read_congr (h _ List.mem_cons_self), reenqueueType]
  have hpresent : ∀ p ∈ reenqueueParameters, s'.contains p = s.contains p := fun p hp =>
    congrArg Option.isSome (h p (List.mem_cons_of_mem _ hp))
  have hfaults (type : ReenqueueRetryType) : parameterFaults s' type = parameterFaults s type := by
    simp only [parameterFaults]
    congr 2
    · exact List.filter_congr fun p hp => by rw [hpresent p (parametersOf_subset type hp)]
    · exact List.filter_congr fun p hp => by rw [hpresent p hp]
  have hread {α : Type} (parse : String → Except Fault α) : ∀ p ∈ reenqueueParameters,
      readPresent parse s' p = readPresent parse s p := fun p hp => by
    rw [readPresent, read_congr (h p (List.mem_cons_of_mem _ hp)), readPresent]
  have hparameters (type : ReenqueueRetryType) :
      readParameters s' type = readParameters s type := by
    cases type <;> simp (disch := decide) only [readParameters, hread]
  cases hs : s.reenqueueType with
  | error f => rw [readReenqueue_of_no_type hs, readReenqueue_of_no_type (htype.trans hs)]
  | ok type =>
    by_cases hf : parameterFaults s type = []
    · rw [readReenqueue_of_parameters hs hf, ← hparameters,
        readReenqueue_of_parameters (htype.trans hs) ((hfaults type).trans hf)]
    · have hf' : parameterFaults s' type ≠ [] := hfaults type ▸ hf
      rw [readReenqueue_of_parameterFaults hs hf, ← hfaults,
        readReenqueue_of_parameterFaults (htype.trans hs) hf']

/-- Sections with the same settings whose texts agree but for the names of places have the same
faults. -/
theorem allFaults_congr (hkeys : s'.keys = s.keys)
    (htexts : ∀ name, name ∉ placeSettings → s'.get? name = s.get? name) :
    s'.allFaults = s.allFaults := by
  have htable : (s'.get? "table").isSome = (s.get? "table").isSome := by
    rw [Bool.eq_iff_iff, Option.isSome_iff_exists, Option.isSome_iff_exists, ← Dict.mem_keys_iff,
      ← Dict.mem_keys_iff, hkeys]
  have hreenqueue : readReenqueue s' = readReenqueue s := by
    refine readReenqueue_congr fun name hname => htexts name ?_
    revert name
    decide
  have hread {α : Type} (parse : String → Except Fault α) : ∀ name, name ∉ placeSettings →
      read parse s' name = read parse s name := fun name hname => read_congr (htexts name hname)
  simp (disch := decide) only [allFaults, plainFaults, reenqueueFaults, hkeys, htable, hreenqueue,
    hread]

end Section

/-! ### Configurations -/

variable {keyPrefix name : String} {queue : QueueId} {properties properties' : Dict String}

/-- Properties with the same keys that agree but for the texts that name places. -/
structure SameButPlaces (keyPrefix : String) (properties properties' : Dict String) : Prop where
  keys : properties'.keys = properties.keys
  texts : ∀ key, (∀ queue, ∀ name ∈ placeSettings, ¬ IsSetting keyPrefix queue name key) →
    properties'.get? key = properties.get? key

theorem mem_keys_sectionOf_iff : name ∈ (sectionOf keyPrefix properties queue).keys ↔
    ∃ key ∈ properties.keys, IsSetting keyPrefix queue name key := by
  rw [sectionOf_eq, Dict.mem_keys_ofList]
  constructor
  · rintro ⟨value, hmem⟩
    obtain ⟨⟨key, value'⟩, hentry, hsetting⟩ := List.mem_filterMap.1 hmem
    exact ⟨key, List.mem_map_of_mem hentry, (settingOf?_eq_some_iff.1 hsetting).1⟩
  · rintro ⟨key, hkey, hsetting⟩
    obtain ⟨⟨_, value⟩, hentry, rfl⟩ := List.mem_map.1 hkey
    exact ⟨value, List.mem_filterMap.2 ⟨_, hentry, settingOf?_eq_some_iff.2 ⟨hsetting, rfl⟩⟩⟩

/-- No setting is without a name. -/
theorem get?_sectionOf_empty : (sectionOf keyPrefix properties queue).get? "" = none := by
  refine Option.eq_none_iff_forall_ne_some.2 fun value hvalue => ?_
  obtain ⟨key, -, hsetting⟩ := mem_keys_sectionOf_iff.1 (Dict.mem_keys_iff.2 ⟨value, hvalue⟩)
  exact hsetting.name_ne rfl

/-- A key is a setting of one name only. -/
theorem IsSetting.name_eq {key name' : String} {queue' : QueueId}
    (h : IsSetting keyPrefix queue name key) (h' : IsSetting keyPrefix queue' name' key) :
    name' = name := by
  have hrole := roleOf_of_isSetting h
  rw [roleOf_of_isSetting h'] at hrole
  cases hrole
  rfl

namespace SameButPlaces

variable (h : SameButPlaces keyPrefix properties properties')

include h

theorem occurs_iff : Occurs keyPrefix properties' queue ↔ Occurs keyPrefix properties queue := by
  rw [Occurs, h.keys, Occurs]

theorem keys_sectionOf : (sectionOf keyPrefix properties' queue).keys
    = (sectionOf keyPrefix properties queue).keys := by
  refine List.Pairwise.eq_of_mem_iff (Dict.keys_ascending _) (Dict.keys_ascending _) fun name => ?_
  rw [mem_keys_sectionOf_iff, mem_keys_sectionOf_iff, h.keys]

theorem get?_sectionOf (hqueue : Occurs keyPrefix properties queue) (hname : name ∉ placeSettings) :
    (sectionOf keyPrefix properties' queue).get? name
      = (sectionOf keyPrefix properties queue).get? name := by
  by_cases hempty : name = ""
  · rw [hempty, get?_sectionOf_empty, get?_sectionOf_empty]
  · rw [Config.get?_sectionOf (h.occurs_iff.2 hqueue) hempty, Config.get?_sectionOf hqueue hempty]
    refine h.texts _ fun queue' name' hplace hsetting => ?_
    obtain ⟨_, _, _, hset⟩ := hqueue
    have hkey : IsSetting keyPrefix queue name (keyPrefix ++ "." ++ queue ++ "." ++ name) :=
      ⟨rfl, hset.queue_ne, hset.queue_dotless, hempty⟩
    exact hname (hkey.name_eq hsetting ▸ hplace)

theorem problems_eq : problems keyPrefix properties' = problems keyPrefix properties := by
  have hmalformed : malformedKeys keyPrefix properties' = malformedKeys keyPrefix properties := by
    rw [malformedKeys, h.keys, malformedKeys]
  have hqueues : queueIds keyPrefix properties' = queueIds keyPrefix properties := by
    rw [queueIds, h.keys, queueIds]
  rw [problems, problems, hmalformed, hqueues]
  refine congrArg _ (List.flatMap_congr fun queue hqueue => ?_)
  rw [problemsOf_parseQueue, problemsOf_parseQueue, Section.allFaults_congr h.keys_sectionOf
    fun name => h.get?_sectionOf (mem_queueIds_iff.1 hqueue)]

end SameButPlaces

/-- The place of a queue of an accepted configuration has the names that are left of its texts. -/
theorem placedBy_of_mem_configs {configs : List QueueConfig} {c : QueueConfig}
    (h : parseReported keyPrefix properties = .ok configs) (hc : c ∈ configs) :
    PlacedBy (textOf keyPrefix properties c.location.queue) c.location := by
  obtain ⟨hqueue, hparse⟩ := of_mem_configs h hc
  obtain ⟨-, table, reenqueue, htable, -, hconfig⟩ :=
    Section.parse_eq_ok_iff.1 (parseQueue_eq_ok_iff.1 hparse)
  have hlocation : c.location = Section.location _ c.location.queue table :=
    congrArg QueueConfig.location hconfig
  have hplaced : PlacedBy _ (Section.location _ c.location.queue table) :=
    Section.placedBy_location htable
  rw [← hlocation] at hplaced
  exact hplaced.congr fun name hname => get?_sectionOf hqueue hname

/-- A queue without a text for its table is reported. -/
theorem parseReported_of_no_table (hqueue : Occurs keyPrefix properties queue)
    (htable : textOf keyPrefix properties queue "table" = none) :
    ∃ lines, parseReported keyPrefix properties = .error (.invalid lines) ∧
      (Problem.setting queue ⟨"table", .required⟩).line keyPrefix ∈ lines := by
  refine parseReported_of_mem_problems (mem_problems_of_mem_allFaults hqueue ?_)
  rw [← get?_sectionOf hqueue (by decide)] at htable
  simp [Section.allFaults, Section.plainFaults, htable]

/-- **Places are what is left of their texts.** In an accepted configuration the table of a queue
has the name that is left of its text, and so has its sequence, which is there exactly when it has a
text: the names hold only characters of table names, and are empty exactly when the texts have none
of these. A queue without a text for its table is reported. But what the texts are that name places
does not matter for a refusal: configurations that differ in nothing else are refused alike. -/
theorem places_are_what_is_left (keyPrefix : String) (properties : Dict String) :
    (∀ configs, parseReported keyPrefix properties = .ok configs → ∀ c ∈ configs,
      PlacedBy (textOf keyPrefix properties c.location.queue) c.location) ∧
    (∀ queue, Occurs keyPrefix properties queue →
      textOf keyPrefix properties queue "table" = none →
      ∃ lines, parseReported keyPrefix properties = .error (.invalid lines) ∧
        (Problem.setting queue ⟨"table", .required⟩).line keyPrefix ∈ lines) ∧
    ∀ properties', SameButPlaces keyPrefix properties properties' → ∀ e,
      parseReported keyPrefix properties' = .error e ↔
        parseReported keyPrefix properties = .error e := by
  refine ⟨fun configs h c => placedBy_of_mem_configs h, fun queue => parseReported_of_no_table,
    fun properties' h e => ?_⟩
  rw [parseReported_eq_error_iff, parseReported_eq_error_iff, h.problems_eq]

/-- A queue with a table and a sequence. -/
def orders : Dict String :=
  .ofList [("tq.orders.table", "jobs;"), ("tq.orders.id-sequence", "job ids")]

/-- The same queue, but nothing is left of the text for its table. -/
def namelessOrders : Dict String := orders.insert "tq.orders.table" "; --"

/-- The names of an accepted queue, with which it would be accepted if its table had none; without
any text for the table it is reported. -/
theorem nameless_table_is_not_reported :
    parseReported "tq" orders = .ok [⟨⟨"orders", "jobs", some "jobids"⟩, {}⟩] ∧
    PlacedBy (textOf "tq" orders "orders") ⟨"orders", "jobs", some "jobids"⟩ ∧
    (∃ lines, parseReported "tq" (orders.erase "tq.orders.table") = .error (.invalid lines) ∧
      "tq.orders.table: setting is required" ∈ lines) ∧
    SameButPlaces "tq" orders namelessOrders ∧
    ∀ e, parseReported "tq" namelessOrders ≠ .error e := by
  obtain ⟨hplaced, -, hsame⟩ := places_are_what_is_left "tq" orders
  obtain ⟨-, hlacking, -⟩ := places_are_what_is_left "tq" (orders.erase "tq.orders.table")
  have haccepted : parseReported "tq" orders
      = .ok [⟨⟨"orders", "jobs", some "jobids"⟩, {}⟩] := by decide +kernel
  have hqueue : Occurs "tq" (orders.erase "tq.orders.table") "orders" :=
    mem_queueIds_iff.1 (by decide +kernel)
  have hnameless : SameButPlaces "tq" orders namelessOrders := by
    refine ⟨by decide +kernel, fun key hkey => ?_⟩
    rw [namelessOrders, Dict.get?_insert, if_neg]
    rintro rfl
    exact hkey "orders" "table" (by decide) ⟨by decide +kernel, by decide, by decide, by decide⟩
  have hline : (Problem.setting "orders" ⟨"table", .required⟩).line "tq"
      = "tq.orders.table: setting is required" := by decide +kernel
  have hreported := hlacking "orders" hqueue (by decide +kernel)
  rw [hline] at hreported
  have horders := hplaced _ haccepted ⟨⟨"orders", "jobs", some "jobids"⟩, {}⟩
    (List.mem_singleton_self _)
  refine ⟨haccepted, horders, hreported, hnameless, fun e he => ?_⟩
  have hrefused := (hsame _ hnameless e).1 he
  rw [haccepted] at hrefused
  cases hrefused

/-- A queue with a text for its table of which nothing is left is accepted, with an empty name. -/
theorem table_may_be_nameless :
    parseReported defaultPrefix (.ofList [("tablequeue.orders.table", ";;")])
      = .ok [⟨⟨"orders", "", none⟩, {}⟩] := by
  decide +kernel

end DurableQueue.Config
