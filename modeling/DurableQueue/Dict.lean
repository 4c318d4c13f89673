/-!
# Sorted dictionaries

A dictionary from texts to values, kept as its entries in ascending order of their keys, so that
two dictionaries with the same entries are equal. Keys are ordered by their code points.

* `get?`, `insert`, `ofList`, `erase` are the usual operations; of equal keys the last one counts;
* `get?_insert` says what `insert` does, key by key, and `get?_ofList` what `ofList` does;
* `mem_entries_iff`: an entry is listed exactly when its key is looked up to its value, and
  `keys_ascending`: keys are listed in ascending order;
* `ext_get?`: dictionaries are equal when all look-ups agree.
-/

namespace DurableQueue

universe u v

/-- Entries in strictly ascending order of their keys. -/
structure Dict (α : Type u) where
  entries : List (String × α)
  sorted : entries.Pairwise fun a b => a.1 < b.1

namespace Dict

variable {α : Type u} {β : Type v}

instance [DecidableEq α] : DecidableEq (Dict α) := fun a b =>
  if h : a.entries = b.entries then isTrue (by cases a; cases b; simp_all)
  else isFalse (fun e => h (by rw [e]))

instance [Repr α] : Repr (Dict α) := ⟨fun d n => reprPrec d.entries n⟩

/-- The dictionary without entries. -/
def empty : Dict α := ⟨[], List.Pairwise.nil⟩

instance : Inhabited (Dict α) := ⟨empty⟩

/-- The keys in ascending order. -/
def keys (d : Dict α) : List String := d.entries.map (·.1)

/-- The value of a key. -/
def get? (d : Dict α) (k : String) : Option α := d.entries.lookup k

/-- Whether a key has a value. -/
def contains (d : Dict α) (k : String) : Bool := (d.get? k).isSome

/-- Put an entry at its place among sorted entries, instead of one with the same key. -/
def insertEntry (k : String) (v : α) : List (String × α) → List (String × α)
  | [] => [(k, v)]
  | e :: es =>
    if k < e.1 then (k, v) :: e :: es
    else if e.1 < k then e :: insertEntry k v es
    else (k, v) :: es

theorem mem_insertEntry {k : String} {v : α} {es : List (String × α)} {e : String × α}
    (h : e ∈ insertEntry k v es) : e = (k, v) ∨ e ∈ es := by
  induction es with
  | nil => simpa [insertEntry] using h
  | cons f es ih =>
    simp only [insertEntry] at h
    split at h
    · simpa using h
    · split at h
      · rcases List.mem_cons.1 h with rfl | h
        · exact Or.inr (by simp)
        · rcases ih h with rfl | h
          · exact Or.inl rfl
          · exact Or.inr (by simp [h])
      · rcases List.mem_cons.1 h with rfl | h
        · exact Or.inl rfl
        · exact Or.inr (by simp [h])

theorem pairwise_insertEntry {k : String} {v : α} {es : List (String × α)}
    (h : es.Pairwise fun a b => a.1 < b.1) :
    (insertEntry k v es).Pairwise fun a b => a.1 < b.1 := by
  induction es with
  | nil => simp [insertEntry]
  | cons e es ih =>
    rw [List.pairwise_cons] at h
    simp only [insertEntry]
    split
    next hk =>
      refine List.pairwise_cons.2 ⟨fun x hx => ?_, List.pairwise_cons.2 h⟩
      rcases List.mem_cons.1 hx with rfl | hx
      · exact hk
      · exact String.lt_trans hk (h.1 x hx)
    next hk =>
      split
      next hk' =>
        refine List.pairwise_cons.2 ⟨fun x hx => ?_, ih h.2⟩
        rcases mem_insertEntry hx with rfl | hx
        · exact hk'
        · exact h.1 x hx
      next hk' =>
        have he : e.1 = k := String.le_antisymm (by grind) (by grind)
        refine List.pairwise_cons.2 ⟨fun x hx => ?_, h.2⟩
        simpa [← he] using h.1 x hx

/-- Give a key a value. -/
def insert (d : Dict α) (k : String) (v : α) : Dict α :=
  ⟨insertEntry k v d.entries, pairwise_insertEntry d.sorted⟩

/-- The dictionary of some pairs; of pairs with the same key the last one counts. -/
def ofList (es : List (String × α)) : Dict α := es.foldl (fun d e => d.insert e.1 e.2) empty

/-- Add the entries of a second dictionary, which win over those of the first. -/
def merge (d e : Dict α) : Dict α := e.entries.foldl (fun d x => d.insert x.1 x.2) d

/-- Remove a key. -/
def erase (d : Dict α) (k : String) : Dict α :=
  ⟨d.entries.filter fun e => e.1 ≠ k, d.sorted.filter _⟩

/-- Change every value, by its key and itself. -/
def mapValues (f : String → α → β) (d : Dict α) : Dict β :=
  ⟨d.entries.map fun e => (e.1, f e.1 e.2), by
    rw [List.pairwise_map]
    exact d.sorted⟩

/-- Change the value of a key, if it has one. -/
def modify (d : Dict α) (k : String) (f : α → α) : Dict α :=
  d.mapValues fun k' v => if k' = k then f v else v

/-- The values in the order of their keys. -/
def values (d : Dict α) : List α := d.entries.map (·.2)

/-- The number of entries. -/
def size (d : Dict α) : Nat := d.entries.length

@[simp] theorem get?_empty (k : String) : (empty : Dict α).get? k = none := rfl

theorem lookup_cons_eq (k : String) (e : String × α) (es : List (String × α)) :
    (e :: es).lookup k = if k = e.1 then some e.2 else es.lookup k := by
  obtain ⟨a, b⟩ := e
  rw [List.lookup_cons]
  by_cases h : k = a
  · simp [h]
  · simp [beq_false_of_ne h, h]

theorem lookup_insertEntry {k : String} {v : α} {es : List (String × α)} {k' : String}
    (h : es.Pairwise fun a b => a.1 < b.1) :
    (insertEntry k v es).lookup k' = if k' = k then some v else es.lookup k' := by
  induction es with
  | nil => simp [insertEntry, lookup_cons_eq]
  | cons e es ih =>
    rw [List.pairwise_cons] at h
    simp only [insertEntry]
    split
    next hk => rw [lookup_cons_eq]
    next hk =>
      split
      next hk' =>
        have hne : e.1 ≠ k := by rintro rfl; exact String.lt_irrefl _ hk'
        rw [lookup_cons_eq, lookup_cons_eq, ih h.2]
        by_cases h' : k' = e.1
        · simp [h', hne]
        · simp [h']
      next hk' =>
        have he : e.1 = k := String.le_antisymm (by grind) (by grind)
        rw [lookup_cons_eq, lookup_cons_eq, he]
        by_cases h' : k' = k <;> simp [h']

/-- An insertion changes the value of its key and of no other. -/
theorem get?_insert (d : Dict α) (k k' : String) (v : α) :
    (d.insert k v).get? k' = if k' = k then some v else d.get? k' :=
  lookup_insertEntry d.sorted

theorem lookup_eq_some_of_mem {es : List (String × α)} (h : es.Pairwise fun a b => a.1 < b.1)
    {e : String × α} (he : e ∈ es) : es.lookup e.1 = some e.2 := by
  induction es with
  | nil => cases he
  | cons f es ih =>
    rw [List.pairwise_cons] at h
    rcases List.mem_cons.1 he with rfl | he
    · simp [lookup_cons_eq]
    · have hlt := h.1 e he
      have hne : e.1 ≠ f.1 := fun hef => String.lt_irrefl f.1 (by rw [hef] at hlt; exact hlt)
      simp [lookup_cons_eq, hne, ih h.2 he]

theorem mem_of_lookup_eq_some {es : List (String × α)} {k : String} {v : α}
    (h : es.lookup k = some v) : (k, v) ∈ es := by
  induction es with
  | nil => cases h
  | cons f es ih =>
    by_cases hk : k = f.1
    · subst hk
      simp only [lookup_cons_eq, if_true, Option.some.injEq] at h
      subst h
      simp
    · simp only [lookup_cons_eq, if_neg hk] at h
      simp [ih h]

/-- The entries are the keys with their values. -/
theorem mem_entries_iff {d : Dict α} {k : String} {v : α} :
    (k, v) ∈ d.entries ↔ d.get? k = some v :=
  ⟨fun h => lookup_eq_some_of_mem d.sorted h, mem_of_lookup_eq_some⟩

theorem mem_keys_iff {d : Dict α} {k : String} : k ∈ d.keys ↔ ∃ v, d.get? k = some v := by
  simp [keys, ← mem_entries_iff]

theorem keys_ascending (d : Dict α) : d.keys.Pairwise (· < ·) := List.pairwise_map.2 d.sorted

/-- Sorted lists with the same members are equal. -/
theorem entries_ext {es fs : List (String × α)} (he : es.Pairwise fun a b => a.1 < b.1)
    (hf : fs.Pairwise fun a b => a.1 < b.1) (h : ∀ x, x ∈ es ↔ x ∈ fs) : es = fs := by
  induction es generalizing fs with
  | nil =>
    cases fs with
    | nil => rfl
    | cons f fs => exact absurd ((h f).2 (by simp)) (by simp)
  | cons e es ih =>
    cases fs with
    | nil => exact absurd ((h e).1 (by simp)) (by simp)
    | cons f fs =>
      rw [List.pairwise_cons] at he hf
      have hef : e = f := by
        have h1 := (h e).1 (by simp)
        have h2 := (h f).2 (by simp)
        rcases List.mem_cons.1 h1 with h1 | h1
        · exact h1
        · rcases List.mem_cons.1 h2 with h2 | h2
          · exact h2.symm
          · exact absurd (he.1 f h2) (String.lt_asymm (hf.1 e h1))
      subst hef
      congr 1
      refine ih he.2 hf.2 fun x => ⟨fun hx => ?_, fun hx => ?_⟩
      · rcases List.mem_cons.1 ((h x).1 (by simp [hx])) with rfl | hx'
        · exact absurd (he.1 x hx) (String.lt_irrefl _)
        · exact hx'
      · rcases List.mem_cons.1 ((h x).2 (by simp [hx])) with rfl | hx'
        · exact absurd (hf.1 x hx) (String.lt_irrefl _)
        · exact hx'

/-- Dictionaries with the same look-ups are equal. -/
theorem ext_get? {d e : Dict α} (h : ∀ k, d.get? k = e.get? k) : d = e := by
  have hl : d.entries = e.entries :=
    entries_ext d.sorted e.sorted fun x => by
      rw [mem_entries_iff (d := d) (k := x.1) (v := x.2),
        mem_entries_iff (d := e) (k := x.1) (v := x.2), h]
  cases d; cases e; simp_all

theorem get?_foldl_insert (es : List (String × α)) (d : Dict α) (k : String) :
    (es.foldl (fun d e => d.insert e.1 e.2) d).get? k
      = (es.reverse.lookup k).or (d.get? k) := by
  induction es generalizing d with
  | nil => simp
  | cons e es ih =>
    rw [List.foldl_cons, ih, get?_insert, List.reverse_cons, List.lookup_append]
    by_cases hk : k = e.1 <;> simp [lookup_cons_eq, hk]

/-- Of pairs with the same key the last one counts. -/
theorem get?_ofList (es : List (String × α)) (k : String) :
    (ofList es).get? k = es.reverse.lookup k := by
  rw [ofList, get?_foldl_insert]
  simp

/-- The entries of a dictionary make it up again. -/
theorem ofList_entries (d : Dict α) : ofList d.entries = d := by
  refine ext_get? fun k => Option.ext fun v => ?_
  rw [get?_ofList]
  constructor
  · intro h
    exact mem_entries_iff.1 (List.mem_reverse.1 (mem_of_lookup_eq_some h))
  · intro h
    have hmem : (k, v) ∈ d.entries.reverse := List.mem_reverse.2 (mem_entries_iff.2 h)
    cases hk : d.entries.reverse.lookup k with
    | none => simpa using List.lookup_eq_none_iff.1 hk (k, v) hmem
    | some w =>
      rw [← h, ← mem_entries_iff.1 (List.mem_reverse.1 (mem_of_lookup_eq_some hk))]

theorem mem_keys_ofList {es : List (String × α)} {k : String} :
    k ∈ (ofList es).keys ↔ ∃ v, (k, v) ∈ es := by
  rw [mem_keys_iff]
  simp only [get?_ofList]
  constructor
  · rintro ⟨v, hv⟩
    exact ⟨v, List.mem_reverse.1 (mem_of_lookup_eq_some hv)⟩
  · rintro ⟨v, hv⟩
    cases hk : es.reverse.lookup k with
    | none => simpa using List.lookup_eq_none_iff.1 hk (k, v) (List.mem_reverse.2 hv)
    | some w => exact ⟨w, rfl⟩

theorem lookup_map (f : String → α → β) (es : List (String × α)) (k : String) :
    (es.map fun e => (e.1, f e.1 e.2)).lookup k = (es.lookup k).map (f k) := by
  induction es with
  | nil => rfl
  | cons e es ih =>
    rw [List.map_cons, lookup_cons_eq, lookup_cons_eq, ih]
    by_cases h : k = e.1 <;> simp [h]

theorem get?_mapValues (f : String → α → β) (d : Dict α) (k : String) :
    (d.mapValues f).get? k = (d.get? k).map (f k) :=
  lookup_map f d.entries k

/-- A modification changes the value of its key and of no other. -/
theorem get?_modify (d : Dict α) (k k' : String) (f : α → α) :
    (d.modify k f).get? k' = if k' = k then (d.get? k').map f else d.get? k' := by
  rw [modify, get?_mapValues]
  by_cases h : k' = k <;> simp [h]

end Dict

end DurableQueue
