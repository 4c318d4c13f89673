import DurableQueue.Config.Section

/-!
# Sections that are refused

A section is refused exactly when it has a fault, and then with all of its faults.

* `Section.plainFaults` lists the faults outside the re-enqueue settings, and `Section.allFaults`
  adds theirs;
* `readReenqueue_ne_error_nil`: re-enqueue settings are never refused without a fault;
* `parse_eq_error_iff` and `parse_eq_ok_iff` say what comes of a section.
-/

namespace DurableQueue.Config.Section

variable {s : Section} {queue : QueueId} {type : ReenqueueRetryType} {c : QueueConfig}
  {fs : List SettingFault}

/-! ### Re-enqueue settings -/

theorem readOne_ne_error_nil {α : Type} (build : α → ReenqueueSettings)
    (a : Except SettingFault α) : readOne build a ≠ .error [] := by
  cases a <;> simp [readOne]

theorem readTwo_ne_error_nil {α β : Type} (build : α → β → ReenqueueSettings)
    (a : Except SettingFault α) (b : Except SettingFault β) : readTwo build a b ≠ .error [] := by
  cases a <;> cases b <;> simp [readTwo, faults]

theorem readParameters_ne_error_nil (s : Section) (type : ReenqueueRetryType) :
    readParameters s type ≠ .error [] := by
  cases type with
  | manual => simp [readParameters]
  | fixed => exact readOne_ne_error_nil _ _
  | sequential => exact readOne_ne_error_nil _ _
  | arithmetic => exact readTwo_ne_error_nil _ _ _
  | geometric => exact readTwo_ne_error_nil _ _ _

/-- The re-enqueue type that a section selects. -/
def reenqueueType (s : Section) : Except SettingFault ReenqueueRetryType :=
  match read (parseName ReenqueueRetryType.parse) s "reenqueue-retry-type" with
  | .ok type => .ok (type.getD .manual)
  | .error f => .error f

theorem readReenqueue_of_no_type {f : SettingFault} (h : s.reenqueueType = .error f) :
    readReenqueue s = .error [f] := by
  unfold reenqueueType at h
  unfold readReenqueue
  split at h
  · cases h
  · next hread => cases h; simp only [hread]

/-- Settings whose type has wrong parameters are refused because of these. -/
theorem readReenqueue_of_parameterFaults (h : s.reenqueueType = .ok type)
    (hf : parameterFaults s type ≠ []) : readReenqueue s = .error (parameterFaults s type) := by
  unfold reenqueueType at h
  unfold readReenqueue
  split at h
  · next hread =>
    cases h
    simp only [hread]
  · cases h

/-- Settings whose type has its parameters are read from these and checked. -/
theorem readReenqueue_of_parameters (h : s.reenqueueType = .ok type)
    (hf : parameterFaults s type = []) :
    readReenqueue s = (readParameters s type).bind fun settings =>
      match settings.validate with
      | .ok () => .ok settings
      | .error e => .error [⟨"reenqueue-retry-type", .inconsistent e⟩] := by
  unfold reenqueueType at h
  unfold readReenqueue
  split at h
  · next hread =>
    cases h
    simp only [hread, hf]
    rfl
  · cases h

/-- Re-enqueue settings are never refused without a fault. -/
theorem readReenqueue_ne_error_nil (s : Section) : readReenqueue s ≠ .error [] := by
  cases htype : s.reenqueueType with
  | error f => simp [readReenqueue_of_no_type htype]
  | ok type =>
    by_cases hf : parameterFaults s type = []
    · -- the parameters are read, and what they make is checked once more
      rw [readReenqueue_of_parameters htype hf]
      cases hread : readParameters s type with
      | error fs =>
        rintro ⟨⟩
        exact readParameters_ne_error_nil s type hread
      | ok settings =>
        simp only [Except.bind]
        split <;> simp
    · rw [readReenqueue_of_parameterFaults htype hf]
      exact fun h => hf (Except.error.inj h)

/-! ### The whole section -/

/-- The faults of a section outside its re-enqueue settings. -/
def plainFaults (s : Section) : List SettingFault :=
  ((s.keys.filter fun k => !isKnown k).map fun k => (⟨k, .unknown⟩ : SettingFault))
    ++ (if (s.get? "table").isSome then [] else [⟨"table", .required⟩])
    ++ faults (read parseDelay s "between-task-timeout")
    ++ faults (read parseDelay s "no-task-timeout")
    ++ faults (read parseDelay s "fatal-crash-timeout")
    ++ faults (read parseCount s "thread-count")
    ++ faults (read (parseName ProcessingMode.parse) s "processing-mode")
    ++ faults (read (parseName FailureRetryType.parse) s "retry-type")
    ++ faults (read parseDelay s "retry-interval")

/-- The faults of the re-enqueue settings of a section. -/
def reenqueueFaults (s : Section) : List SettingFault :=
  match readReenqueue s with
  | .ok _ => []
  | .error fs => fs

/-- All faults of a section. -/
def allFaults (s : Section) : List SettingFault := s.plainFaults ++ s.reenqueueFaults

/-- The configuration of a section without faults. -/
def configOf (queue : QueueId) (s : Section) (table : String) (reenqueue : ReenqueueSettings) :
    QueueConfig :=
  let poll : PollSettings := {}
  let processing : ProcessingSettings := {}
  let failure : FailureSettings := {}
  { location := location s queue table
    settings :=
      { processing := ⟨valueOr processing.threadCount (read parseCount s "thread-count"),
          valueOr processing.mode (read (parseName ProcessingMode.parse) s "processing-mode")⟩
        poll := ⟨valueOr poll.betweenTasks (read parseDelay s "between-task-timeout"),
          valueOr poll.noTask (read parseDelay s "no-task-timeout"),
          valueOr poll.fatalCrash (read parseDelay s "fatal-crash-timeout")⟩
        failure :=
          ⟨valueOr failure.retryType (read (parseName FailureRetryType.parse) s "retry-type"),
            valueOr failure.retryInterval (read parseDelay s "retry-interval")⟩
        reenqueue := reenqueue
        ext := additional s } }

/-- A section is read into its configuration, unless it has faults. -/
theorem parse_eq (queue : QueueId) (s : Section) :
    parse queue s =
      match s.allFaults, s.get? "table", readReenqueue s with
      | [], some table, .ok reenqueue => .ok (configOf queue s table reenqueue)
      | found, _, _ => .error found := rfl

/-- A section without faults names its table and has re-enqueue settings. -/
theorem of_allFaults_eq_nil (h : s.allFaults = []) :
    ∃ table reenqueue, s.get? "table" = some table ∧ readReenqueue s = .ok reenqueue := by
  obtain ⟨hplain, hreenqueue⟩ := List.append_eq_nil_iff.1 h
  cases htable : s.get? "table" with
  | none => simp [plainFaults, htable] at hplain
  | some table =>
    -- no faults of the re-enqueue settings means that there are settings
    cases hr : readReenqueue s with
    | ok reenqueue => exact ⟨table, reenqueue, rfl, rfl⟩
    | error fs =>
      simp only [reenqueueFaults, hr] at hreenqueue
      exact absurd (hreenqueue ▸ hr) (readReenqueue_ne_error_nil s)

theorem parse_of_allFaults_ne_nil (h : s.allFaults ≠ []) :
    parse queue s = .error s.allFaults := by
  rw [parse_eq]
  cases hf : s.allFaults with
  | nil => exact absurd hf h
  | cons f fs => rfl

/-- A section is refused with all its faults, and only if it has any. -/
theorem parse_eq_error_iff : parse queue s = .error fs ↔ fs = s.allFaults ∧ fs ≠ [] := by
  by_cases h : s.allFaults = []
  · obtain ⟨table, reenqueue, htable, hreenqueue⟩ := of_allFaults_eq_nil h
    simp only [parse_eq, h, htable, hreenqueue]
    simp
  · rw [parse_of_allFaults_ne_nil h]
    constructor
    · rintro ⟨⟩
      exact ⟨rfl, h⟩
    · rintro ⟨rfl, -⟩
      rfl

/-- A section is accepted if it has no faults, with what its settings say. -/
theorem parse_eq_ok_iff : parse queue s = .ok c ↔ s.allFaults = [] ∧
    ∃ table reenqueue, s.get? "table" = some table ∧ readReenqueue s = .ok reenqueue ∧
      c = configOf queue s table reenqueue := by
  by_cases h : s.allFaults = []
  · obtain ⟨table, reenqueue, htable, hreenqueue⟩ := of_allFaults_eq_nil h
    simp only [parse_eq, h, htable, hreenqueue]
    constructor
    · rintro ⟨⟩
      exact ⟨trivial, table, reenqueue, rfl, rfl, rfl⟩
    · rintro ⟨-, _, _, ⟨⟩, ⟨⟩, rfl⟩
      rfl
  · simp [parse_of_allFaults_ne_nil h, h]

end DurableQueue.Config.Section
