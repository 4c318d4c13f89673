import DurableQueue.Config.Reader
import Mathlib.Data.List.Basic
import Mathlib.Tactic.ByContra

/-!
# Keys of a configuration

Which keys are settings of queues, said without a look at how keys are read, and dictionaries of
which only some keys are kept.

* `Dict.restrict` keeps the keys with some property;
* `Below` and `IsSetting` say what keys lie below a prefix and which of them are settings, and
  `roleOf_eq_foreign_iff`, `roleOf_eq_setting_iff`, `roleOf_eq_malformed_iff` that keys are read so;
* `IsOf` are the keys of one queue.
-/

namespace DurableQueue

/-! ### Some keys of a dictionary -/

namespace Dict

variable {α β : Type} {keep : String → Prop} [DecidablePred keep]

/-- The entries whose keys have some property. -/
def restrict (keep : String → Prop) [DecidablePred keep] (d : Dict α) : Dict α :=
  ⟨d.entries.filter fun e => keep e.1, d.sorted.filter _⟩

theorem get?_restrict (d : Dict α) (k : String) :
    (d.restrict keep).get? k = if keep k then d.get? k else none := by
  ext v
  rw [← mem_entries_iff]
  simp only [restrict, List.mem_filter, mem_entries_iff]
  split <;> simp_all

theorem mem_keys_restrict {d : Dict α} {k : String} :
    k ∈ (d.restrict keep).keys ↔ k ∈ d.keys ∧ keep k := by
  simp only [mem_keys_iff, get?_restrict]
  split <;> simp_all

theorem restrict_congr {d e : Dict α} (h : ∀ k, keep k → d.get? k = e.get? k) :
    d.restrict keep = e.restrict keep :=
  ext_get? fun k => by
    rw [get?_restrict, get?_restrict]
    split
    · exact h k ‹_›
    · rfl

/-- Entries that are passed over need not be there. -/
theorem filterMap_entries_restrict {f : String × α → Option β} (d : Dict α)
    (h : ∀ e, ¬ keep e.1 → f e = none) :
    (d.restrict keep).entries.filterMap f = d.entries.filterMap f := by
  rw [restrict, List.filterMap_filter]
  refine List.filterMap_congr fun e _ => ?_
  by_cases he : keep e.1 <;> simp [he, h e]

/-- Keys that are passed over need not be there. -/
theorem filterMap_keys_restrict {f : String → Option β} (d : Dict α)
    (h : ∀ k, ¬ keep k → f k = none) :
    (d.restrict keep).keys.filterMap f = d.keys.filterMap f := by
  simp only [keys, List.filterMap_map]
  exact filterMap_entries_restrict d fun e he => h e.1 he

/-- Pairs that agree on a key give it their value. -/
theorem get?_ofList_eq_some_iff {es : List (String × α)} {k : String} {v : α}
    (hone : ∀ w, (k, w) ∈ es → (k, v) ∈ es → w = v) :
    (ofList es).get? k = some v ↔ (k, v) ∈ es := by
  constructor
  · intro h
    rw [get?_ofList] at h
    exact List.mem_reverse.1 (mem_of_lookup_eq_some h)
  · intro h
    obtain ⟨w, hw⟩ := mem_keys_iff.1 (mem_keys_ofList.2 ⟨v, h⟩)
    have hmem : (k, w) ∈ es := by
      rw [get?_ofList] at hw
      exact List.mem_reverse.1 (mem_of_lookup_eq_some hw)
    rw [hw, hone w hmem h]

end Dict

namespace Config

variable {keyPrefix key name : String} {queue : QueueId} {properties properties' : Dict String}

/-! ### Keys -/

/-- A key lies below a prefix. -/
def Below (keyPrefix key : String) : Prop := ∃ rest, key = keyPrefix ++ "." ++ rest

/-- A key is that of a setting of a queue. -/
structure IsSetting (keyPrefix : String) (queue : QueueId) (name key : String) : Prop where
  key_eq : key = keyPrefix ++ "." ++ queue ++ "." ++ name
  queue_ne : queue ≠ ""
  queue_dotless : '.' ∉ queue.toList
  name_ne : name ≠ ""

/-- A key is that of some setting of a queue. -/
def IsOf (keyPrefix : String) (queue : QueueId) (key : String) : Prop :=
  ∃ name, IsSetting keyPrefix queue name key

/-- What is left of a key below a prefix. -/
theorem stripPrefix_key_eq_some_iff {rest : List Char} :
    Text.stripPrefix (keyPrefix.toList ++ ['.']) key.toList = some rest ↔
      key = keyPrefix ++ "." ++ String.ofList rest := by
  rw [Text.stripPrefix_eq_some_iff, ← String.toList_inj]
  simp

/-- A queue and a setting are told apart by the first dot. -/
theorem splitOnce_dot_eq_some_iff {rest a b : List Char} :
    Text.splitOnce (· == '.') rest = some (a, b) ↔ rest = a ++ '.' :: b ∧ '.' ∉ a := by
  rw [Text.splitOnce_eq_some_iff]
  constructor
  · rintro ⟨c, hc, hrest, ha⟩
    obtain rfl : c = '.' := by simpa using hc
    exact ⟨hrest, fun hdot => by simpa using ha '.' hdot⟩
  · rintro ⟨hrest, ha⟩
    exact ⟨'.', rfl, hrest, fun x hx => beq_false_of_ne fun hdot => ha (hdot ▸ hx)⟩

theorem roleOf_of_isSetting (h : IsSetting keyPrefix queue name key) :
    roleOf keyPrefix key = .setting queue name := by
  have hrest : Text.stripPrefix (keyPrefix.toList ++ ['.']) key.toList
      = some (queue.toList ++ '.' :: name.toList) := by
    rw [Text.stripPrefix_eq_some_iff, h.key_eq]
    simp
  have hcut : Text.splitOnce (· == '.') (queue.toList ++ '.' :: name.toList)
      = some (queue.toList, name.toList) :=
    splitOnce_dot_eq_some_iff.2 ⟨rfl, h.queue_dotless⟩
  obtain ⟨c, cs, hqueue⟩ := List.exists_cons_of_ne_nil (mt String.toList_eq_nil_iff.1 h.queue_ne)
  obtain ⟨d, ds, hname⟩ := List.exists_cons_of_ne_nil (mt String.toList_eq_nil_iff.1 h.name_ne)
  simp only [roleOf, hrest, hcut]
  simp only [hqueue, hname]
  rw [← hqueue, ← hname, String.ofList_toList, String.ofList_toList]

theorem isSetting_of_roleOf (h : roleOf keyPrefix key = .setting queue name) :
    IsSetting keyPrefix queue name key := by
  unfold roleOf at h
  split at h
  · cases h
  next rest hrest =>
    split at h
    next c cs d ds hcut =>
      cases h
      obtain ⟨hsplit, hdot⟩ := splitOnce_dot_eq_some_iff.1 hcut
      refine ⟨?_, ?_, by simpa using hdot, ?_⟩
      · rw [stripPrefix_key_eq_some_iff.1 hrest, hsplit, ← String.toList_inj]
        simp
      · simp [← String.toList_inj]
      · simp [← String.toList_inj]
    · cases h

theorem roleOf_eq_setting_iff :
    roleOf keyPrefix key = .setting queue name ↔ IsSetting keyPrefix queue name key :=
  ⟨isSetting_of_roleOf, roleOf_of_isSetting⟩

theorem roleOf_eq_foreign_iff : roleOf keyPrefix key = .foreign ↔ ¬ Below keyPrefix key := by
  unfold roleOf
  split
  next hnone =>
    refine iff_of_true rfl fun hbelow => ?_
    obtain ⟨rest, hrest⟩ := hbelow
    have hkey : key = keyPrefix ++ "." ++ String.ofList rest.toList := by
      rw [String.ofList_toList, hrest]
    rw [stripPrefix_key_eq_some_iff.2 hkey] at hnone
    cases hnone
  next rest hrest =>
    refine iff_of_false ?_ (not_not.2 ⟨_, stripPrefix_key_eq_some_iff.1 hrest⟩)
    split <;> simp

/-- The malformed keys are those below the prefix that are no settings. -/
theorem roleOf_eq_malformed_iff : roleOf keyPrefix key = .malformed ↔
    Below keyPrefix key ∧ ∀ queue name, ¬ IsSetting keyPrefix queue name key := by
  cases hrole : roleOf keyPrefix key with
  | foreign => simp [roleOf_eq_foreign_iff.1 hrole]
  | malformed =>
    simp only [true_iff]
    refine ⟨?_, fun queue name hset => ?_⟩
    · by_contra hbelow
      rw [roleOf_eq_foreign_iff.2 hbelow] at hrole
      cases hrole
    · rw [roleOf_of_isSetting hset] at hrole
      cases hrole
  | setting queue name =>
    simp only [reduceCtorEq, false_iff, not_and, not_forall]
    exact fun _ => ⟨queue, name, not_not.2 (isSetting_of_roleOf hrole)⟩

/-- The queue that a key has a setting of. -/
def KeyRole.queue? : KeyRole → Option QueueId
  | .setting queue _ => some queue
  | _ => none

theorem queue?_roleOf_eq_some_iff :
    (roleOf keyPrefix key).queue? = some queue ↔ IsOf keyPrefix queue key := by
  simp only [IsOf, ← roleOf_eq_setting_iff]
  cases roleOf keyPrefix key <;> simp [KeyRole.queue?]

instance : DecidablePred (IsOf keyPrefix queue) := fun _ =>
  decidable_of_iff _ queue?_roleOf_eq_some_iff

end Config

end DurableQueue
