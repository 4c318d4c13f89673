import DurableQueue.Proofs.Json.Documents
import DurableQueue.Proofs.Time.Timestamps
import DurableQueue.Task.Json

/-!
# Encoded values are decoded again

Decoding undoes encoding for every type with a JSON form, from its parts to whole documents.

* `Json.Undoes` is about one value, a decoder and an encoder, and says as well that the document in
  between tells the value apart from others;
* `Json.undoes_option`, `undoes_list`, `undoes_dict` and `undoes_record` put decoders together;
* `values_survive_json` is the main statement, about the text of documents.
-/

namespace DurableQueue

namespace Json

/-- A decoder undoes an encoder on a value, whose document says all about it. -/
structure Undoes {α : Type} (f : Json → Option α) (g : α → Json) (a : α) : Prop where
  decoded : f (g a) = some a
  faithful : (g a).Faithful

variable {α β γ : Type}

theorem mapM_map_eq_some {f : β → Option γ} {g : α → β} {k : α → γ} {as : List α}
    (h : ∀ a ∈ as, f (g a) = some (k a)) : (as.map g).mapM f = some (as.map k) := by
  induction as with
  | nil => rfl
  | cons a as ih =>
    rw [List.map_cons, List.mapM_cons, h a List.mem_cons_self,
      ih fun b hb => h b (List.mem_cons_of_mem a hb)]
    rfl

theorem valuesOf_cons (name : String) (e : String × Json) (fields : List (String × Json)) :
    valuesOf name (e :: fields)
      = if e.1 = name then e.2 :: valuesOf name fields else valuesOf name fields := by
  unfold valuesOf
  by_cases h : e.1 = name <;> simp [h]

theorem valuesOf_of_notMem {name : String} {fields : List (String × Json)}
    (h : name ∉ fields.map (·.1)) : valuesOf name fields = [] := by
  induction fields with
  | nil => rfl
  | cons e fields ih =>
    rw [List.map_cons, List.mem_cons, not_or] at h
    rw [valuesOf_cons, if_neg (Ne.symm h.1), ih h.2]

theorem valuesOf_of_nodup {fields : List (String × Json)} (h : (fields.map (·.1)).Nodup)
    {e : String × Json} (he : e ∈ fields) : valuesOf e.1 fields = [e.2] := by
  induction fields with
  | nil => cases he
  | cons first fields ih =>
    rw [List.map_cons, List.nodup_cons] at h
    rcases List.mem_cons.1 he with rfl | he
    · rw [valuesOf_cons, if_pos rfl, valuesOf_of_notMem h.1]
    · have hne : first.1 ≠ e.1 := fun heq => h.1 (heq ▸ List.mem_map_of_mem he)
      rw [valuesOf_cons, if_neg hne, ih h.2 he]

/-- The fields of an object are found by their names. -/
theorem asRecord?_object {names : List String} {fields : List (String × Json)} {required : Nat}
    (h : names.Nodup) (hnames : fields.map (·.1) = names) :
    asRecord? names required (.object fields) = some (fields.map fun e => some e.2) := by
  subst hnames
  exact mapM_map_eq_some fun e he => by rw [valuesOf_of_nodup h he]

/-- A record is decoded again if its fields are, whose values say all about it. -/
theorem undoes_record {α : Type} {a : α} {names : List String} {required : Nat}
    {fields : α → List (String × Json)} {decodeFields : List (Option Json) → Option α}
    (hnodup : names.Nodup) (hnames : (fields a).map (·.1) = names)
    (hdecoded : decodeFields ((fields a).map fun e => some e.2) = some a)
    (hfaithful : ∀ e ∈ fields a, e.2.Faithful) :
    Undoes (fun j => (asRecord? names required j).bind decodeFields)
      (fun a => .object (fields a)) a := by
  refine ⟨?_, .object hfaithful⟩
  rw [asRecord?_object hnodup hnames, Option.bind_some, hdecoded]

theorem undoes_text (s : String) : Undoes asText? .text s := ⟨rfl, .text s⟩

theorem faithful_natCast {n : Nat} (h : n ≤ Decimal.max64) : (Json.integer n).Faithful :=
  .integer (Int.le_trans (by decide) (Int.natCast_nonneg n)) (Int.ofNat_le.2 h)

theorem asNatUpTo?_natCast {limit n : Nat} (h : n ≤ limit) :
    asNatUpTo? limit (.integer n) = some n := if_pos h

theorem undoes_count (c : Count) : Undoes asCount? (fun c => ofNat c.val) c := by
  refine ⟨?_, faithful_natCast (Nat.le_trans c.le_max (by decide))⟩
  rw [asCount?, ofNat, asNatUpTo?_natCast c.le_max, Option.bind_some, Count.ofNat?_val]

theorem undoes_delay (d : Delay) : Undoes asDelay? ofDelay d := by
  have hseconds : d.seconds ≤ Decimal.max64 := Nat.le_of_lt_succ d.seconds_lt
  have hfraction : d.fraction ≤ Decimal.max32 :=
    Nat.le_trans (Nat.le_of_lt d.fraction_lt) (by decide)
  constructor
  · have hrecord : asRecord? ["secs", "nanos"] 2 (ofDelay d)
        = some [some (.integer d.seconds), some (.integer d.fraction)] :=
      asRecord?_object (by decide) rfl
    have hnanos : Delay.ofNanos? (d.seconds * nanosPerSecond + d.fraction) = some d :=
      Delay.ofNanos?_eq_some_iff.2 d.seconds_fraction.symm
    unfold asDelay?
    rw [hrecord]
    refine (if_pos rfl).trans (Option.bind_eq_some_iff.2 ⟨_, rfl, ?_⟩)
    exact Option.bind_eq_some_iff.2 ⟨_, asNatUpTo?_natCast hseconds,
      Option.bind_eq_some_iff.2 ⟨_, asNatUpTo?_natCast hfraction, hnanos⟩⟩
  · refine .object ?_
    simp [faithful_natCast hseconds, faithful_natCast (Nat.le_trans hfraction (by decide))]

theorem undoes_instant (t : Instant) : Undoes asInstant? ofInstant t := by
  refine ⟨?_, .text _⟩
  rw [asInstant?, ofInstant, asText?, Option.bind_some, Timestamp.read?_write]

theorem asOption?_of_some {f : Json → Option α} (hnull : f .null = none) {j : Json} {a : α}
    (h : f j = some a) : asOption? f j = some (some a) := by
  cases j with
  | null => cases hnull.symm.trans h
  | _ => exact congrArg (Option.map some) h

variable {f : Json → Option α} {g : α → Json}

theorem undoes_option (hnull : f .null = none) {a : Option α}
    (h : ∀ b, a = some b → Undoes f g b) : Undoes (asOption? f) (ofOption g) a := by
  cases a with
  | none => exact ⟨rfl, .null⟩
  | some b => exact ⟨asOption?_of_some hnull (h b rfl).decoded, (h b rfl).faithful⟩

theorem undoes_list {as : List α} (h : ∀ a ∈ as, Undoes f g a) :
    Undoes (asList? f) (fun as => .array (as.map g)) as := by
  refine ⟨(mapM_map_eq_some fun a ha => (h a ha).decoded).trans (by rw [List.map_id']), .array ?_⟩
  intro j hj
  obtain ⟨a, ha, rfl⟩ := List.mem_map.1 hj
  exact (h a ha).faithful

theorem undoes_dict {d : Dict α} (h : ∀ e ∈ d.entries, Undoes f g e.2) :
    Undoes (asDict? f) (ofDict g) d := by
  constructor
  · have hfields : (d.entries.map fun e => (e.1, g e.2)).mapM
        (fun e => (f e.2).map fun v => (e.1, v)) = some d.entries := by
      refine (mapM_map_eq_some (k := fun e => e) fun e he => ?_).trans (by rw [List.map_id'])
      rw [(h e he).decoded, Option.map_some]
    rw [ofDict, asDict?, hfields, Option.map_some, Dict.ofList_entries]
  · refine .object fun e he => ?_
    obtain ⟨e, hmem, rfl⟩ := List.mem_map.1 he
    exact (h e hmem).faithful

end Json

open Json

/-! ### Enumerations and records -/

theorem undoes_processingMode (m : ProcessingMode) :
    Undoes JsonCodec.decode? JsonCodec.encode m := by
  cases m <;> exact ⟨rfl, .text _⟩

theorem undoes_failureRetryType (t : FailureRetryType) :
    Undoes JsonCodec.decode? JsonCodec.encode t := by
  cases t <;> exact ⟨rfl, .text _⟩

theorem undoes_reenqueueRetryType (t : ReenqueueRetryType) :
    Undoes JsonCodec.decode? JsonCodec.encode t := by
  cases t <;> exact ⟨rfl, .text _⟩

theorem undoes_location (l : Location) : Undoes JsonCodec.decode? JsonCodec.encode l := by
  have hsequence : Undoes (asOption? asText?) (ofOption .text) l.idSequence :=
    undoes_option rfl fun s _ => undoes_text s
  refine undoes_record (by decide) rfl ?_ ?_
  · simp only [List.map_cons, List.map_nil, Option.bind_eq_bind, Option.bind_some, field?,
      optionalField?, asText?, hsequence.decoded]
  · simp [hsequence.faithful, Faithful.text]

theorem undoes_processingSettings (s : ProcessingSettings) :
    Undoes JsonCodec.decode? JsonCodec.encode s := by
  have hthreads := undoes_count s.threadCount
  have hmode := undoes_processingMode s.mode
  refine undoes_record (by decide) rfl ?_ ?_
  · simp only [List.map_cons, List.map_nil, Option.bind_eq_bind, Option.bind_some, field?,
      hthreads.decoded, hmode.decoded]
  · simp [hthreads.faithful, hmode.faithful]

theorem undoes_pollSettings (s : PollSettings) : Undoes JsonCodec.decode? JsonCodec.encode s := by
  refine undoes_record (by decide) rfl ?_ ?_
  · simp only [List.map_cons, List.map_nil, Option.bind_eq_bind, Option.bind_some, field?,
      (undoes_delay _).decoded]
  · simp [(undoes_delay _).faithful]

theorem undoes_failureSettings (s : FailureSettings) :
    Undoes JsonCodec.decode? JsonCodec.encode s := by
  have htype := undoes_failureRetryType s.retryType
  refine undoes_record (by decide) rfl ?_ ?_
  · simp only [List.map_cons, List.map_nil, Option.bind_eq_bind, Option.bind_some, field?,
      htype.decoded, (undoes_delay _).decoded]
  · simp [htype.faithful, (undoes_delay _).faithful]

theorem undoes_optionalDelay (d : Option Delay) :
    Undoes (asOption? asDelay?) (ofOption ofDelay) d :=
  undoes_option rfl fun d _ => undoes_delay d

theorem undoes_reenqueueSettings (s : ReenqueueSettings) :
    Undoes JsonCodec.decode? JsonCodec.encode s := by
  have htype := undoes_reenqueueRetryType s.retryType
  have hplan : Undoes (asOption? (asList? asDelay?))
      (ofOption fun plan => .array (plan.map ofDelay)) s.sequentialPlan :=
    undoes_option rfl fun plan _ => undoes_list fun d _ => undoes_delay d
  have hratio : Undoes (asOption? asCount?) (ofOption fun n => ofNat n.val) s.geometricRatio :=
    undoes_option rfl fun n _ => undoes_count n
  refine undoes_record (by decide) rfl ?_ ?_
  · simp only [List.map_cons, List.map_nil, Option.bind_eq_bind, Option.bind_some, field?,
      optionalField?, htype.decoded, (undoes_optionalDelay _).decoded, hplan.decoded,
      hratio.decoded]
  · simp [htype.faithful, (undoes_optionalDelay _).faithful, hplan.faithful, hratio.faithful]

theorem undoes_extSettings (s : ExtSettings) : Undoes JsonCodec.decode? JsonCodec.encode s := by
  have hvalues : Undoes (asDict? asText?) (ofDict .text) s.values :=
    undoes_dict fun e _ => undoes_text e.2
  refine undoes_record (by decide) rfl ?_ ?_
  · simp only [List.map_cons, List.map_nil, Option.bind_eq_bind, Option.bind_some, field?,
      hvalues.decoded]
  · simp [hvalues.faithful]

/-! ### Tasks -/

theorem undoes_taskResult (r : TaskResult) : Undoes JsonCodec.decode? JsonCodec.encode r := by
  cases r with
  | finish => exact ⟨rfl, .object (by simp [Faithful.text])⟩
  | fail => exact ⟨rfl, .object (by simp [Faithful.text])⟩
  | reenqueue delay =>
    have hdelay := undoes_optionalDelay delay
    have hwhole : (JsonCodec.encode (TaskResult.reenqueue delay)).isSound = true ∧
        (JsonCodec.encode (TaskResult.reenqueue delay)).depth ≤ Json.deepest := by
      cases delay with
      | none => exact ⟨rfl, by decide⟩
      | some d => exact ⟨rfl, (by decide : 2 ≤ Json.deepest)⟩
    refine ⟨(if_pos hwhole).trans ?_, .object (by simp [Faithful.text, hdelay.faithful])⟩
    exact congrArg (Option.map TaskResult.reenqueue) hdelay.decoded

theorem undoes_taskRecord {r : TaskRecord} (least : leastInteger ≤ r.id)
    (greatest : r.id < -leastInteger) : Undoes JsonCodec.decode? JsonCodec.encode r := by
  have hid : asInt64? (.integer r.id) = some r.id := if_pos ⟨least, greatest⟩
  have hgreatest : r.id ≤ greatestInteger := Int.le_trans (Int.le_of_lt greatest) (by decide)
  have hpayload : Undoes (asOption? asText?) (ofOption .text) r.payload :=
    undoes_option rfl fun s _ => undoes_text s
  have hextra : Undoes asColumns? (ofDict (ofOption .text)) r.extra :=
    undoes_dict fun e _ => undoes_option rfl fun s _ => undoes_text s
  refine undoes_record (by decide) rfl ?_ ?_
  · simp only [List.map_cons, List.map_nil, Option.bind_eq_bind, Option.bind_some, field?,
      optionalField?, hid, hpayload.decoded, (undoes_count _).decoded, (undoes_instant _).decoded,
      hextra.decoded]
  · simp [Faithful.integer least hgreatest, hpayload.faithful, (undoes_count _).faithful,
      (undoes_instant _).faithful, hextra.faithful]

/-! ### Documents -/

/-- The document of a value is decoded to the value. -/
def SurvivesJson {α : Type} [JsonCodec α] (a : α) : Prop :=
  JsonCodec.decodeText? (JsonCodec.encodeText a) = some a

theorem Json.Undoes.survivesJson {α : Type} [JsonCodec α] {a : α}
    (h : Undoes JsonCodec.decode? JsonCodec.encode a) : SurvivesJson a := by
  rw [SurvivesJson, JsonCodec.decodeText?, JsonCodec.encodeText, read?_write h.faithful,
    Option.bind_some, h.decoded]

/-- **Every value survives its document**, whatever texts, numbers, delays, timestamps and further
columns are in it: results and records of tasks, names of queues and shards, locations, and all
settings with their enumerations. The identifier of a task has 64 bits, with a sign. -/
theorem values_survive_json :
    (∀ r : TaskResult, SurvivesJson r) ∧
    (∀ r : TaskRecord, leastInteger ≤ r.id → r.id < -leastInteger → SurvivesJson r) ∧
    (∀ queue : QueueId, SurvivesJson queue) ∧
    (∀ shard : ShardId, SurvivesJson shard) ∧
    (∀ l : Location, SurvivesJson l) ∧
    (∀ m : ProcessingMode, SurvivesJson m) ∧
    (∀ t : FailureRetryType, SurvivesJson t) ∧
    (∀ t : ReenqueueRetryType, SurvivesJson t) ∧
    (∀ s : ProcessingSettings, SurvivesJson s) ∧
    (∀ s : PollSettings, SurvivesJson s) ∧
    (∀ s : FailureSettings, SurvivesJson s) ∧
    (∀ s : ReenqueueSettings, SurvivesJson s) ∧
    (∀ s : ExtSettings, SurvivesJson s) :=
  ⟨fun r => (undoes_taskResult r).survivesJson,
    fun _ least greatest => (undoes_taskRecord least greatest).survivesJson,
    fun queue => (undoes_text queue).survivesJson, fun shard => (undoes_text shard).survivesJson,
    fun l => (undoes_location l).survivesJson, fun m => (undoes_processingMode m).survivesJson,
    fun t => (undoes_failureRetryType t).survivesJson,
    fun t => (undoes_reenqueueRetryType t).survivesJson,
    fun s => (undoes_processingSettings s).survivesJson,
    fun s => (undoes_pollSettings s).survivesJson, fun s => (undoes_failureSettings s).survivesJson,
    fun s => (undoes_reenqueueSettings s).survivesJson,
    fun s => (undoes_extSettings s).survivesJson⟩

/-- A record at the ends of what its fields can hold: a leap second, a year of six digits, the least
identifier and a name with a quote and a control character. -/
def extremeRecord : TaskRecord where
  id := -9223372036854775808
  payload := some "line\nwith \"quotes\" \\ and \x01"
  attempts := .zero
  reenqueueAttempts := .one
  totalAttempts := .clamp Decimal.max32
  createdAt := ⟨1483228799, 1500000000, by decide⟩
  nextProcessAt := .greatest
  extra := (Dict.empty.insert "" none).insert "\"" (some "")

/-- The record at the ends survives its document. -/
theorem extremeRecord_survives :
    leastInteger ≤ extremeRecord.id ∧ extremeRecord.id < -leastInteger ∧
    SurvivesJson extremeRecord := by
  obtain ⟨-, hrecord, -⟩ := values_survive_json
  have hleast : leastInteger ≤ extremeRecord.id := by decide
  have hgreatest : extremeRecord.id < -leastInteger := by decide
  exact ⟨hleast, hgreatest, hrecord extremeRecord hleast hgreatest⟩

end DurableQueue
