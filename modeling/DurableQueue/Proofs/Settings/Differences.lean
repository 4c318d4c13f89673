import DurableQueue.Proofs.Text.Quoted
import DurableQueue.Settings.Json
import Mathlib.Data.List.Nodup

/-!
# Differences of settings

The differences of two values of a group are the entries of the fields in which they differ.

* `Field` is a field of a group, with the entry that reports a change of it, and `Field.Listed` says
  that its entry is among the differences;
* `ProcessingSettings.fields`, `PollSettings.fields`, `FailureSettings.fields` and
  `ReenqueueSettings.fields` are the fields of the records, and `ExtSettings.field` is an additional
  setting as a field;
* `TellsFields` says that differences tell which fields differ, and `tellsFields_of_map` how this is
  shown;
* `ListsFields` is about records and `ListsKeys` about additional settings, and
  `differences_are_exact` is the main statement.
-/

namespace DurableQueue

open Text (quoted shownText)

/-! ### Fields -/

/-- A field of a group of settings: its name, what it holds, and how this is shown. -/
structure Field (α : Type) where
  name : String
  Value : Type
  value : α → Value
  shown : Value → String
  [decidableEq : DecidableEq Value]

namespace Field

variable {α : Type}

instance (f : Field α) : DecidableEq f.Value := f.decidableEq

/-- Two values differ in a field. -/
def Differs (f : Field α) (old new : α) : Prop := f.value old ≠ f.value new

instance (f : Field α) (old new : α) : Decidable (f.Differs old new) :=
  inferInstanceAs (Decidable (f.value old ≠ f.value new))

/-- The entry of a field. -/
def entry (f : Field α) (old new : α) : String :=
  f.name ++ "=" ++ f.shown (f.value old) ++ "->" ++ f.shown (f.value new)

/-- The entry of a field is among the differences. -/
def Listed [SettingGroup α] (f : Field α) (old new : α) : Prop :=
  f.entry old new ∈ SettingGroup.differences old new

theorem differs_comm {f : Field α} {old new : α} : f.Differs old new ↔ f.Differs new old := ne_comm

/-- A field has a difference exactly when values differ in it, and that is its entry. -/
theorem fieldDifference_eq (f : Field α) (old new : α) :
    fieldDifference f.name f.shown (f.value old) (f.value new)
      = if f.Differs old new then some (f.entry old new) else none := by
  rw [fieldDifference, entry]
  by_cases h : f.value old = f.value new <;> simp [Differs, h]

/-- A name without an equals sign is told by the entry. -/
theorem name_eq_of_entry_eq {f g : Field α} {old new : α} (hf : '=' ∉ f.name.toList)
    (hg : '=' ∉ g.name.toList) (h : f.entry old new = g.entry old new) : f.name = g.name := by
  have hcut : ∀ k : Field α, '=' ∉ k.name.toList →
      Text.splitOnce (· == '=') (k.entry old new).toList = some
        (k.name.toList, (k.shown (k.value old) ++ "->" ++ k.shown (k.value new)).toList) := by
    intro k hk
    refine Text.splitOnce_eq_some_iff.2 ⟨'=', rfl, by simp [entry], fun c hc => ?_⟩
    rw [beq_eq_false_iff_ne]
    rintro rfl
    exact hk hc
  have hname := (hcut f hf).symm.trans (h ▸ hcut g hg)
  exact String.toList_inj.1 (congrArg Prod.fst (Option.some.inj hname))

end Field

theorem filterMap_ite_some {α β : Type*} (p : α → Prop) [DecidablePred p] (g : α → β)
    (as : List α) :
    (as.filterMap fun a => if p a then some (g a) else none) = (as.filter p).map g := by
  induction as with
  | nil => rfl
  | cons a as ih => by_cases h : p a <;> simp [h, ih]

/-! ### What differences tell -/

section

variable {α : Type} [SettingGroup α]

/-- Differences tell which of the fields of a group differ. -/
structure TellsFields (IsField : Field α → Prop) : Prop where
  /-- There are none exactly between equal values. -/
  nil_iff : ∀ old new : α, SettingGroup.differences old new = [] ↔ old = new
  /-- A field has its entry exactly when it differs. -/
  listed_iff : ∀ f, IsField f → ∀ old new : α, f.Listed old new ↔ f.Differs old new
  /-- There are no other entries, -/
  is_entry : ∀ old new : α, ∀ e ∈ SettingGroup.differences old new,
    ∃ f, IsField f ∧ f.entry old new = e
  /-- and none is there twice. -/
  nodup : ∀ old new : α, (SettingGroup.differences old new).Nodup
  /-- A field is told by its name, -/
  name_injective : ∀ f g, IsField f → IsField g → f.name = g.name → f = g
  /-- and by its entry. -/
  entry_injective : ∀ f g, IsField f → IsField g → ∀ old new : α,
    f.entry old new = g.entry old new → f = g
  /-- The same names are listed the other way round. -/
  names_comm : ∀ (old new : α) (name : String),
    (∃ f, IsField f ∧ f.name = name ∧ f.Listed old new) ↔
      ∃ f, IsField f ∧ f.name = name ∧ f.Listed new old

/-- Differences tell which fields differ, if they are the entries of those fields, fields make up
their group, and names and entries tell them apart. -/
theorem tellsFields_of_map {IsField : Field α → Prop} (differing : α → α → List (Field α))
    (hentries : ∀ old new, SettingGroup.differences old new
      = (differing old new).map fun f => f.entry old new)
    (hmem : ∀ old new f, f ∈ differing old new ↔ IsField f ∧ f.Differs old new)
    (hnodup : ∀ old new, (differing old new).Nodup)
    (hext : ∀ old new : α, (∀ f, IsField f → ¬ f.Differs old new) → old = new)
    (hname : ∀ f g, IsField f → IsField g → f.name = g.name → f = g)
    (hentry : ∀ f g, IsField f → IsField g → ∀ old new : α,
      f.entry old new = g.entry old new → f.name = g.name) : TellsFields IsField := by
  have hinj : ∀ f g, IsField f → IsField g → ∀ old new : α,
      f.entry old new = g.entry old new → f = g :=
    fun f g hf hg old new h => hname f g hf hg (hentry f g hf hg old new h)
  have hlisted : ∀ f, IsField f → ∀ old new : α, f.Listed old new ↔ f.Differs old new := by
    intro f hf old new
    rw [Field.Listed, hentries, List.mem_map]
    constructor
    · rintro ⟨g, hg, heq⟩
      obtain ⟨hfield, hdiffers⟩ := (hmem old new g).1 hg
      rwa [← hinj g f hfield hf old new heq]
    · exact fun hdiffers => ⟨f, (hmem old new f).2 ⟨hf, hdiffers⟩, rfl⟩
  refine ⟨fun old new => ?_, hlisted, fun old new e he => ?_, fun old new => ?_, hname, hinj,
    fun old new name => ?_⟩
  · rw [hentries, List.map_eq_nil_iff, List.eq_nil_iff_forall_not_mem]
    constructor
    · intro hnone
      exact hext old new fun f hf hdiffers => hnone f ((hmem old new f).2 ⟨hf, hdiffers⟩)
    · rintro rfl f hf
      exact ((hmem old old f).1 hf).2 rfl
  · rw [hentries] at he
    obtain ⟨f, hf, rfl⟩ := List.mem_map.1 he
    exact ⟨f, ((hmem old new f).1 hf).1, rfl⟩
  · rw [hentries]
    refine List.Nodup.map_on (fun f hf g hg => ?_) (hnodup old new)
    exact hinj f g ((hmem old new f).1 hf).1 ((hmem old new g).1 hg).1 old new
  · refine exists_congr fun f => and_congr_right fun hf => and_congr_right fun _ => ?_
    rw [hlisted f hf, hlisted f hf, Field.differs_comm]

/-! ### Records -/

/-- Differences list the fields of a record that differ, in the order of the record. -/
structure ListsFields [JsonCodec α] (fields : List (Field α)) : Prop where
  /-- The fields are those of the record, in the order in which it is written. -/
  declared : ∀ v : α, ∃ members, JsonCodec.encode v = .object members ∧
    members.map (·.1) = fields.map Field.name
  in_order : ∀ old new : α, SettingGroup.differences old new
    = (fields.filter fun f => f.Differs old new).map fun f => f.entry old new
  tells : TellsFields (· ∈ fields)

/-- Differences list the fields of a record if they are put together field by field. -/
theorem listsFields_of [JsonCodec α] {fields : List (Field α)}
    (hdeclared : ∀ v : α, ∃ members, JsonCodec.encode v = .object members ∧
      members.map (·.1) = fields.map Field.name)
    (hnames : (fields.map Field.name).Nodup ∧ ∀ f ∈ fields, '=' ∉ f.name.toList)
    (hdifferences : ∀ old new : α, SettingGroup.differences old new = (fields.map fun f =>
      fieldDifference f.name f.shown (f.value old) (f.value new)).filterMap id)
    (hext : ∀ old new : α, (∀ f ∈ fields, ¬ f.Differs old new) → old = new) :
    ListsFields fields := by
  have horder : ∀ old new : α, SettingGroup.differences old new
      = (fields.filter fun f => f.Differs old new).map fun f => f.entry old new := by
    intro old new
    rw [hdifferences, List.filterMap_map, ← filterMap_ite_some]
    exact List.filterMap_congr fun f _ => f.fieldDifference_eq old new
  refine ⟨hdeclared, horder, tellsFields_of_map _ horder ?_ ?_ hext ?_ ?_⟩
  · intro old new f
    rw [List.mem_filter, decide_eq_true_iff]
  · exact fun old new => (List.Nodup.of_map _ hnames.1).filter _
  · exact fun f g hf hg => List.inj_on_of_nodup_map hnames.1 hf hg
  · exact fun f g hf hg old new => Field.name_eq_of_entry_eq (hnames.2 f hf) (hnames.2 g hg)

end

/-- The fields of processing settings. -/
def ProcessingSettings.fields : List (Field ProcessingSettings) :=
  [⟨"thread_count", _, threadCount, Count.text⟩,
   ⟨"processing_mode", _, mode, ProcessingMode.label⟩]

/-- The fields of poll settings. -/
def PollSettings.fields : List (Field PollSettings) :=
  [⟨"between_task_timeout", _, betweenTasks, Delay.brief⟩,
   ⟨"no_task_timeout", _, noTask, Delay.brief⟩,
   ⟨"fatal_crash_timeout", _, fatalCrash, Delay.brief⟩]

/-- The fields of failure settings. -/
def FailureSettings.fields : List (Field FailureSettings) :=
  [⟨"retry_type", _, retryType, FailureRetryType.label⟩,
   ⟨"retry_interval", _, retryInterval, Delay.brief⟩]

/-- The fields of re-enqueue settings. -/
def ReenqueueSettings.fields : List (Field ReenqueueSettings) :=
  [⟨"retry_type", _, retryType, ReenqueueRetryType.label⟩,
   ⟨"fixed_delay", _, fixedDelay, Text.shownOption Delay.brief⟩,
   ⟨"sequential_plan", _, sequentialPlan, Text.shownOption (Text.shownList Delay.brief)⟩,
   ⟨"initial_delay", _, initialDelay, Text.shownOption Delay.brief⟩,
   ⟨"arithmetic_step", _, arithmeticStep, Text.shownOption Delay.brief⟩,
   ⟨"geometric_ratio", _, geometricRatio, Text.shownOption Count.text⟩]

theorem listsFields_processing : ListsFields ProcessingSettings.fields := by
  refine listsFields_of (fun v => ⟨_, rfl, rfl⟩) (by decide) (fun old new => rfl)
    fun old new h => ?_
  cases old
  cases new
  simpa [ProcessingSettings.fields, Field.Differs] using h

theorem listsFields_poll : ListsFields PollSettings.fields := by
  refine listsFields_of (fun v => ⟨_, rfl, rfl⟩) (by decide) (fun old new => rfl)
    fun old new h => ?_
  cases old
  cases new
  simpa [PollSettings.fields, Field.Differs] using h

theorem listsFields_failure : ListsFields FailureSettings.fields := by
  refine listsFields_of (fun v => ⟨_, rfl, rfl⟩) (by decide) (fun old new => rfl)
    fun old new h => ?_
  cases old
  cases new
  simpa [FailureSettings.fields, Field.Differs] using h

theorem listsFields_reenqueue : ListsFields ReenqueueSettings.fields := by
  refine listsFields_of (fun v => ⟨_, rfl, rfl⟩) (by decide) (fun old new => rfl)
    fun old new h => ?_
  cases old
  cases new
  simpa [ReenqueueSettings.fields, Field.Differs] using h

/-! ### Additional settings -/

namespace ExtSettings

/-- An additional setting as a field. -/
def field (key : String) : Field ExtSettings :=
  ⟨key, _, (·.get? key), fun value => String.ofList (shownText value)⟩

theorem toList_entry_field (key : String) (old new : ExtSettings) :
    ((field key).entry old new).toList = key.toList ++ '=' :: shownText (old.get? key) ++ ['-']
      ++ '>' :: shownText (new.get? key) := by
  simp [Field.entry, field]

/-- An entry tells the name of its setting, whatever signs the name is made of. -/
theorem eq_of_entry_eq {key key' : String} {old new : ExtSettings}
    (h : (field key).entry old new = (field key').entry old new) : key = key' := by
  have hlist := congrArg String.toList h
  rw [toList_entry_field, toList_entry_field] at hlist
  have hfront := List.append_cancel_right
    (Text.append_shownText_inj (by decide) (by decide) hlist)
  exact String.toList_inj.1 (Text.append_shownText_inj (by decide) (by decide) hfront)

/-- The names of settings that were changed or removed. -/
def changedKeys (old new : ExtSettings) : List String :=
  old.values.keys.filter fun k => old.get? k ≠ new.get? k

/-- The names of settings that were added. -/
def addedKeys (old new : ExtSettings) : List String :=
  new.values.keys.filter fun k => old.get? k = none

theorem mem_changedKeys {old new : ExtSettings} {k : String} :
    k ∈ changedKeys old new ↔ (old.get? k).isSome ∧ old.get? k ≠ new.get? k := by
  rw [changedKeys, List.mem_filter, Dict.mem_keys_iff, decide_eq_true_iff, Option.isSome_iff_exists]
  rfl

theorem mem_addedKeys {old new : ExtSettings} {k : String} :
    k ∈ addedKeys old new ↔ old.get? k = none ∧ (new.get? k).isSome := by
  rw [addedKeys, List.mem_filter, Dict.mem_keys_iff, decide_eq_true_iff, Option.isSome_iff_exists,
    and_comm]
  rfl

/-- What is found entry by entry is found key by key. -/
theorem filterMap_entries {β : Type} {d : Dict String} {f : String × String → Option β}
    {p : String → Prop} [DecidablePred p] {g : String → β}
    (h : ∀ k v, d.get? k = some v → f (k, v) = if p k then some (g k) else none) :
    d.entries.filterMap f = (d.keys.filter p).map g := by
  rw [Dict.keys, ← filterMap_ite_some, List.filterMap_map]
  exact List.filterMap_congr fun e he => h e.1 e.2 (Dict.mem_entries_iff.1 he)

theorem differences_eq (old new : ExtSettings) : differences old new
    = (changedKeys old new ++ addedKeys old new).map fun k => (field k).entry old new := by
  -- texts are compared sign by sign, since `None` may be written together with the arrow
  have hentry : ∀ {k text : String} {was is : Option String}, old.values.get? k = was →
      new.values.get? k = is → text.toList = k.toList ++ '=' :: shownText was ++ ['-'] ++
        '>' :: shownText is → some text = some ((field k).entry old new) := by
    rintro k text _ _ rfl rfl htext
    rw [Option.some.injEq, ← String.toList_inj, toList_entry_field, htext]
    rfl
  rw [differences, List.map_append]
  congr 1
  · refine filterMap_entries fun k was hwas => ?_
    cases hnew : new.values.get? k with
    | none =>
      have hdiffers : old.get? k ≠ new.get? k := by simp [get?, hwas, hnew]
      simp only [hnew, if_pos hdiffers]
      exact hentry hwas hnew (by simp [shownText])
    | some is =>
      have hdiffers : old.get? k ≠ new.get? k ↔ ¬ is = was := by
        simp [get?, hwas, hnew, eq_comm]
      simp only [hnew, hdiffers, ite_not]
      split
      · rfl
      · exact hentry hwas hnew (by simp [shownText])
  · refine filterMap_entries fun k is his => ?_
    cases hold : old.values.get? k with
    | none =>
      have hadded : old.get? k = none := hold
      simp only [Dict.contains, hold, if_pos hadded]
      exact hentry hold his (by simp [shownText])
    | some was =>
      have hthere : ¬ old.get? k = none := by simp [get?, hold]
      simp only [Dict.contains, hold, if_neg hthere]
      rfl

/-- Differences list the settings that differ: changed and removed ones in ascending order of their
names, then added ones in ascending order of theirs. -/
structure ListsKeys : Prop where
  in_order : ∀ old new : ExtSettings, ∃ changed added : List String,
    changed.Pairwise (· < ·) ∧
    (∀ k, k ∈ changed ↔ (old.get? k).isSome ∧ old.get? k ≠ new.get? k) ∧
    added.Pairwise (· < ·) ∧ (∀ k, k ∈ added ↔ old.get? k = none ∧ (new.get? k).isSome) ∧
    SettingGroup.differences old new = (changed ++ added).map fun k => (field k).entry old new
  tells : TellsFields fun f => ∃ k, f = field k

theorem changedKeys_ascending (old new : ExtSettings) : (changedKeys old new).Pairwise (· < ·) :=
  old.values.keys_ascending.filter _

theorem addedKeys_ascending (old new : ExtSettings) : (addedKeys old new).Pairwise (· < ·) :=
  new.values.keys_ascending.filter _

theorem mem_changed_or_added {old new : ExtSettings} {k : String} :
    k ∈ changedKeys old new ++ addedKeys old new ↔ old.get? k ≠ new.get? k := by
  rw [List.mem_append, mem_changedKeys, mem_addedKeys]
  cases old.get? k <;> cases new.get? k <;> simp

theorem nodup_changed_added (old new : ExtSettings) :
    (changedKeys old new ++ addedKeys old new).Nodup := by
  refine List.nodup_append.2 ⟨(changedKeys_ascending old new).nodup,
    (addedKeys_ascending old new).nodup, ?_⟩
  rintro k hchanged _ hadded rfl
  have hthere := (mem_changedKeys.1 hchanged).1
  rw [(mem_addedKeys.1 hadded).1] at hthere
  cases hthere

theorem listsKeys : ListsKeys where
  in_order old new := ⟨changedKeys old new, addedKeys old new, changedKeys_ascending old new,
    fun _ => mem_changedKeys, addedKeys_ascending old new, fun _ => mem_addedKeys,
    differences_eq old new⟩
  tells := by
    refine tellsFields_of_map (fun old new => (changedKeys old new ++ addedKeys old new).map field)
      (fun old new => ?_) (fun old new f => ?_) (fun old new => ?_) (fun old new h => ?_) ?_ ?_
    · rw [List.map_map]
      exact differences_eq old new
    · rw [List.mem_map]
      constructor
      · rintro ⟨k, hk, rfl⟩
        exact ⟨⟨k, rfl⟩, mem_changed_or_added.1 hk⟩
      · rintro ⟨⟨k, rfl⟩, hdiffers⟩
        exact ⟨k, mem_changed_or_added.2 hdiffers, rfl⟩
    · exact (nodup_changed_added old new).map fun k k' h => congrArg Field.name h
    · have hvalues : old.values = new.values :=
        Dict.ext_get? fun k => not_not.1 (h (field k) ⟨k, rfl⟩)
      cases old
      cases new
      exact congrArg ExtSettings.mk hvalues
    · rintro _ _ ⟨k, rfl⟩ ⟨k', rfl⟩ h
      exact congrArg field h
    · rintro _ _ ⟨k, rfl⟩ ⟨k', rfl⟩ old new h
      exact eq_of_entry_eq h

end ExtSettings

/-- **Differences are complete and minimal.** For each of the five groups there are none exactly
between equal values; each field that differs has one entry, and the entries are in order: for
records that of their fields, for additional settings the changed and removed names in ascending
order and then the added ones. The same fields are listed the other way round. -/
theorem differences_are_exact :
    ListsFields ProcessingSettings.fields ∧ ListsFields PollSettings.fields ∧
    ListsFields FailureSettings.fields ∧ ListsFields ReenqueueSettings.fields ∧
    ExtSettings.ListsKeys :=
  ⟨listsFields_processing, listsFields_poll, listsFields_failure, listsFields_reenqueue,
    ExtSettings.listsKeys⟩

example : SettingGroup.differences (ExtSettings.mk (.ofList [("a", "1"), ("c", "2")]))
    (ExtSettings.mk (.ofList [("b", "3"), ("c", "4")])) =
      ["a=\"1\"->None", "c=\"2\"->\"4\"", "b=None->\"3\""] := by
  decide +kernel

end DurableQueue
