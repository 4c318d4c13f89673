import DurableQueue.Proofs.Store.Sending

/-!
# Columns and values of a new row

The statement that adds a row lists columns and, apart from them, values, which are numbered places
of what is sent beside the text. Here the two lists are read off the parts of the statement.

* `Statement.listed` is a list between parentheses, cut at its commas;
* `Content` is what a column is set to, with the value itself in place of its number, and
  `Statement.insertion?` pairs the columns of a statement with it;
* `Statement.LinesUp` says what the statement for a task has to be.

**Columns and values line up** (`insert_lines_up`) whatever the schema, the place and the extra
columns are.
-/

namespace DurableQueue.Sql

open Identifier

/-! ### Reading an insertion -/

/-- What a column of a new row is set to. -/
inductive Content
  /-- The next number of a sequence. -/
  | next (sequence : String)
  | value (v : Value)
  | now
  /-- The time after the milliseconds of a value. -/
  | after (v : Value)
  | zero
  deriving DecidableEq, Repr

/-- The value at a place; places are numbered from one. -/
def bound? (values : List Value) : Nat → Option Value
  | 0 => none
  | n + 1 => values[n]?

/-- Read what a column is set to, given the values that are sent. -/
def Content.read? (values : List Value) : List Piece → Option Content
  | [.words "nextval('", .name sequence, .words "')"] => some (.next sequence)
  | [.slot n] => (bound? values n).map .value
  | [.words "now()"] => some .now
  | [.words "now() + ", .slot n, .words "::float8 * interval '1 millisecond'"] =>
    (bound? values n).map .after
  | [.words "0"] => some .zero
  | _ => none

/-- Read the name of a column. -/
def nameOf? : List Piece → Option String
  | [.name c] => some c
  | _ => none

namespace Statement

/-- What is listed, with commas, between two words of a statement. -/
def listed (opening closing : String) (st : Statement) : List (List Piece) :=
  ((st.pieces.dropWhile (· ≠ .words opening)).tail.takeWhile (· ≠ .words closing)).splitOn
    (.words ", ")

/-- The columns that an insertion lists. -/
def columnParts (st : Statement) : List (List Piece) := st.listed " (" ") VALUES ("

/-- The values that an insertion lists. -/
def valueParts (st : Statement) : List (List Piece) := st.listed ") VALUES (" ") RETURNING id"

/-- The columns of an insertion and what they are set to; there have to be as many of these. -/
def insertion? (st : Statement) : Option (List (String × Content)) := do
  let columns ← st.columnParts.mapM nameOf?
  let contents ← st.valueParts.mapM (Content.read? st.values)
  if columns.length = contents.length then some (columns.zip contents) else none

end Statement

/-- The columns that a new row for a task is to have, and what they are to be set to. -/
def newRow (s : Schema) (l : Location) (task : NewTask) : List (String × Content) :=
  (l.idSequence.map fun sequence => ("id", .next sequence)).toList ++
    [(s.queueName, .value (.text l.queue)), (s.payload, .value (.text task.payload)),
     (s.createdAt, .now), (s.nextProcessAt, .after (.millis task.delay)), (s.attempt, .zero),
     (s.reenqueueAttempt, .zero), (s.totalAttempt, .zero)] ++
    task.extra.entries.map fun e => (columnName e.1, .value (.text (some e.2)))

/-- A statement that adds a row for a task lists as many values as columns. Its places are numbered
without gaps in the order of the text, one for each value that is sent. -/
structure Statement.LinesUp (s : Schema) (l : Location) (task : NewTask) (st : Statement) :
    Prop where
  as_many : st.valueParts.length = st.columnParts.length
  slots : st.slots = List.range' 1 (3 + task.extra.size)
  values : st.values.length = 3 + task.extra.size
  insertion : st.insertion? = some (newRow s l task)

/-! ### Lists -/

theorem separated_eq_intercalate (sep : String) (groups : List (List Piece)) :
    separated sep groups = [Piece.words sep].intercalate groups := by
  fun_induction separated sep groups with
  | case1 => rfl
  | case2 g => simp
  | case3 g g' groups ih => simp [ih]

theorem words_mem_separated {sep w : String} {groups : List (List Piece)}
    (h : .words w ∈ separated sep groups) : w = sep ∨ ∃ g ∈ groups, .words w ∈ g := by
  fun_induction separated sep groups with
  | case1 => cases h
  | case2 g => exact .inr ⟨g, by simp, h⟩
  | case3 g g' groups ih =>
    rcases List.mem_append.1 h with h | h
    · exact .inr ⟨g, by simp, h⟩
    · rcases List.mem_cons.1 h with h | h
      · exact .inl (Piece.words.inj h)
      · rcases ih h with heq | ⟨g'', hg, hw⟩
        · exact .inl heq
        · exact .inr ⟨g'', List.mem_cons_of_mem _ hg, hw⟩

/-- A list is read as the groups that were separated by commas. -/
theorem listed_eq {st : Statement} {opening closing : String} {front back : List Piece}
    {groups : List (List Piece)}
    (hpieces : st.pieces = front ++ .words opening :: (separated ", " groups ++
      .words closing :: back))
    (hopening : .words opening ∉ front) (hclosing : closing ≠ ", ") (hne : groups ≠ [])
    (hgroups : ∀ g ∈ groups, .words closing ∉ g ∧ .words ", " ∉ g) :
    st.listed opening closing = groups := by
  have hfront : st.pieces.dropWhile (· ≠ .words opening) =
      .words opening :: (separated ", " groups ++ .words closing :: back) := by
    rw [hpieces, List.dropWhile_append_of_pos]
    · simp
    · intro p hp
      have hp' : p ≠ .words opening := fun heq => hopening (heq ▸ hp)
      simpa using hp'
  have hinside : (separated ", " groups ++ .words closing :: back).takeWhile (· ≠ .words closing)
      = separated ", " groups := by
    rw [List.takeWhile_append_of_pos]
    · simp
    · intro p hp
      have hp' : p ≠ .words closing := by
        rintro rfl
        rcases words_mem_separated hp with h | ⟨g, hg, hw⟩
        · exact hclosing h
        · exact (hgroups g hg).1 hw
      simpa using hp'
  rw [Statement.listed, hfront, List.tail_cons, hinside, separated_eq_intercalate,
    List.splitOn_intercalate _ (fun g hg => (hgroups g hg).2) hne]

/-- The numbers of the places in some parts of a statement. -/
def slotsOf (pieces : List Piece) : List Nat := Statement.slots { pieces }

@[simp] theorem slotsOf_nil : slotsOf [] = [] := rfl

@[simp] theorem slotsOf_words (w : String) (ps : List Piece) :
    slotsOf (.words w :: ps) = slotsOf ps := rfl

@[simp] theorem slotsOf_name (n : String) (ps : List Piece) :
    slotsOf (.name n :: ps) = slotsOf ps := rfl

@[simp] theorem slotsOf_slot (n : Nat) (ps : List Piece) :
    slotsOf (.slot n :: ps) = n :: slotsOf ps := rfl

@[simp] theorem slotsOf_append (ps qs : List Piece) :
    slotsOf (ps ++ qs) = slotsOf ps ++ slotsOf qs := List.filterMap_append

@[simp] theorem slotsOf_separated (sep : String) (groups : List (List Piece)) :
    slotsOf (separated sep groups) = groups.flatMap slotsOf := by
  fun_induction separated sep groups with
  | case1 => rfl
  | case2 g => simp
  | case3 g g' groups ih => simp [ih]

/-! ### The statement that adds a row -/

/-- What a column is set to by a source, given the values that are sent. -/
def Source.content? (values : List Value) : Source → Option Content
  | .sequence name => some (.next name)
  | .slot n => (bound? values n).map .value
  | .now => some .now
  | .after n => (bound? values n).map .after
  | .zero => some .zero

theorem Content.read?_pieces (values : List Value) (source : Source) :
    read? values source.pieces = source.content? values := by
  cases source <;> rfl

/-- Places that go on behind some values are those of the values that follow. -/
theorem mapM_content?_slots (front values : List Value) :
    ((List.range' (front.length + 1) values.length).map Source.slot).mapM
      (Source.content? (front ++ values)) = some (values.map .value) := by
  induction values generalizing front with
  | nil => rfl
  | cons v values ih =>
    have hrest := ih (front ++ [v])
    rw [List.length_append, List.length_singleton, List.append_assoc, List.singleton_append]
      at hrest
    have hfirst : Source.content? (front ++ v :: values) (.slot (front.length + 1))
        = some (.value v) := by
      simp [Source.content?, bound?]
    rw [List.length_cons, List.range'_succ, List.map_cons, List.mapM_cons, hfirst, hrest]
    rfl

section

variable (s : Schema) (l : Location) (task : NewTask) (columns : List (String × String))

/-- The columns of an insertion, each as a list of its own is written. -/
theorem pieces_insert : (insertStatement s l task columns).pieces =
    [.words "INSERT INTO ", .name l.table] ++ .words " (" ::
      (separated ", "
        (((insertEntries s l (columns.map (·.1))).map (·.1)).map fun c => [.name c]) ++
      .words ") VALUES (" ::
      (separated ", " (((insertEntries s l (columns.map (·.1))).map (·.2)).map Source.pieces) ++
      [.words ") RETURNING id"])) := by
  simp [insertStatement, Function.comp_def]

theorem insertEntries_ne_nil (extra : List String) : insertEntries s l extra ≠ [] := by
  simp [insertEntries]

/-- The words in what a column is set to are no borders of a list. -/
theorem words_mem_pieces {source : Source} {w : String} (h : .words w ∈ source.pieces) :
    w ∉ [", ", ") VALUES (", ") RETURNING id"] := by
  cases source with
  | slot n => simp [Source.pieces] at h
  | _ =>
    simp only [Source.pieces, interval, List.mem_cons, Piece.words.injEq, reduceCtorEq,
      List.not_mem_nil, or_false, false_or] at h
    rcases h with rfl | rfl <;> decide

theorem columnParts_insert : (insertStatement s l task columns).columnParts =
    ((insertEntries s l (columns.map (·.1))).map (·.1)).map fun c => [.name c] := by
  refine listed_eq (pieces_insert s l task columns) (by simp) (by decide) ?_ ?_
  · simpa using insertEntries_ne_nil s l _
  · exact List.forall_mem_map.2 fun c _ => by simp

theorem valueParts_insert : (insertStatement s l task columns).valueParts =
    ((insertEntries s l (columns.map (·.1))).map (·.2)).map Source.pieces := by
  have hpieces := pieces_insert s l task columns
  -- the list of columns is a part of what stands in front of the values
  rw [← List.cons_append, ← List.append_assoc] at hpieces
  refine listed_eq hpieces ?_ (by decide) ?_ ?_
  · intro hw
    rcases List.mem_append.1 hw with hw | hw
    · simp at hw
    · rcases List.mem_cons.1 hw with hw | hw
      · simp at hw
      · rcases words_mem_separated hw with h | ⟨g, hg, hw⟩
        · simp at h
        · obtain ⟨c, -, rfl⟩ := List.mem_map.1 hg
          simp at hw
  · simpa using insertEntries_ne_nil s l _
  · refine List.forall_mem_map.2 fun source _ => ⟨fun hw => ?_, fun hw => ?_⟩
    · exact words_mem_pieces hw (by simp)
    · exact words_mem_pieces hw (by simp)

/-- The places of an insertion are numbered in the order of the text. -/
theorem slots_insert : (insertStatement s l task columns).slots
    = List.range' 1 (3 + columns.length) := by
  have hslots : (insertStatement s l task columns).slots
      = slotsOf (insertStatement s l task columns).pieces := rfl
  have hnames (cs : List String) : (cs.map fun c => [Piece.name c]).flatMap slotsOf = [] := by
    simp
  have hsequence :
      ((l.idSequence.map Source.sequence).toList.map Source.pieces).flatMap slotsOf = [] := by
    cases l.idSequence <;> rfl
  have hextra : (((List.range' 4 (columns.map (·.1)).length).map Source.slot).map
      Source.pieces).flatMap slotsOf = List.range' 4 columns.length := by
    simp [Source.pieces, List.flatMap_map]
  rw [hslots, pieces_insert]
  simp only [slotsOf_append, slotsOf_words, slotsOf_name, slotsOf_nil, slotsOf_separated, hnames,
    map_snd_insertEntries, List.map_append, List.flatMap_append, hsequence, hextra, List.nil_append,
    List.append_nil]
  exact List.range'_append_1 (s := 1) (m := 3)

theorem mapM_nameOf? (cs : List String) :
    (cs.map fun c => [Piece.name c]).mapM nameOf? = some cs := by
  induction cs with
  | nil => rfl
  | cons c cs ih =>
    rw [List.map_cons, List.mapM_cons, ih]
    rfl

end

section

variable {s : Schema} {task : NewTask} {columns : List (String × String)}

/-- What columns are set to is read off an insertion. -/
theorem mapM_read?_insert (h : s.resolveExtra task.extra = .ok columns) (l : Location) :
    (insertStatement s l task columns).valueParts.mapM
      (Content.read? (insertStatement s l task columns).values)
      = some ((newRow s l task).map (·.2)) := by
  obtain ⟨-, rfl⟩ := Schema.resolveExtra_eq_ok_iff.1 h
  let front : List Value := [.text l.queue, .text task.payload, .millis task.delay]
  let rest : List Value := task.extra.entries.map fun e => .text (some e.2)
  have hvalues : (insertStatement s l task
      (task.extra.entries.map fun e => (columnName e.1, e.2))).values = front ++ rest := by
    simp [insertStatement, front, rest]
  have hread : (Content.read? (front ++ rest) ∘ Source.pieces)
      = Source.content? (front ++ rest) := funext (Content.read?_pieces _)
  have hsequence : (l.idSequence.map Source.sequence).toList.mapM
      (Source.content? (front ++ rest)) = some (l.idSequence.map Content.next).toList := by
    cases l.idSequence <;> rfl
  have hfixed : [Source.slot 1, .slot 2, .now, .after 3, .zero, .zero, .zero].mapM
      (Source.content? (front ++ rest)) = some [.value (.text l.queue),
        .value (.text task.payload), .now, .after (.millis task.delay), .zero, .zero, .zero] := rfl
  have hextra : ((List.range' 4 task.extra.entries.length).map Source.slot).mapM
      (Source.content? (front ++ rest)) = some (rest.map .value) := by
    simpa [front, rest] using mapM_content?_slots front rest
  rw [hvalues, valueParts_insert, List.mapM_map, hread, map_snd_insertEntries, List.mapM_append,
    List.mapM_append, hsequence, hfixed, List.length_map, List.length_map, hextra]
  simp only [newRow, List.map_append, List.map_map, rest]
  cases l.idSequence <;> rfl

/-- An insertion sets the columns of the new row to what they are to hold. -/
theorem insertion?_insert (h : s.resolveExtra task.extra = .ok columns) (l : Location) :
    (insertStatement s l task columns).insertion? = some (newRow s l task) := by
  have hnames : (insertEntries s l (columns.map (·.1))).map (·.1)
      = (newRow s l task).map (·.1) := by
    obtain ⟨-, rfl⟩ := Schema.resolveExtra_eq_ok_iff.1 h
    rw [map_fst_insertEntries, newRow]
    cases l.idSequence <;> simp [Function.comp_def]
  have hcolumns : (insertStatement s l task columns).columnParts.mapM nameOf?
      = some ((newRow s l task).map (·.1)) := by
    rw [columnParts_insert, mapM_nameOf?, hnames]
  have hpaired :
      newRow s l task = ((newRow s l task).map (·.1)).zip ((newRow s l task).map (·.2)) :=
    List.zip_of_prod rfl rfl
  rw [Statement.insertion?, hcolumns, mapM_read?_insert h l]
  show (if _ then _ else none) = _
  rw [if_pos (by simp), ← hpaired]

/-- Only the first column is fed from a sequence, and only if there is one. -/
theorem getElem?_newRow_eq_next_iff {l : Location} {i : Nat} {column sequence : String} :
    (newRow s l task)[i]? = some (column, .next sequence) ↔
      i = 0 ∧ column = "id" ∧ l.idSequence = some sequence := by
  have hrest (k : Nat) : (newRow s { l with idSequence := none } task)[k]?
      ≠ some (column, .next sequence) := by
    intro hk
    simpa [newRow] using List.mem_of_getElem? hk
  cases hl : l.idSequence with
  | none =>
    have hrow : newRow s l task = newRow s { l with idSequence := none } task := by
      simp [newRow, hl]
    simp [hrow, hrest]
  | some name =>
    have hrow : newRow s l task
        = ("id", .next name) :: newRow s { l with idSequence := none } task := by
      simp [newRow, hl]
    cases i with
    | zero => simp [hrow, eq_comm]
    | succ i => simp [hrow, hrest]

/-- **Columns and values line up.** When the extra columns of a task are declared, the statement
that adds a row for it lists as many values as columns, with one place for each value that is sent,
and sets every column to what it is to hold: the column of the queue to the queue, the one of the
payload to the payload, and each extra column to the value that was given for it. The identifier
comes from a sequence, and first, exactly when there is one, whose name is clean where the location
was built. An open session sends this statement and no other. -/
theorem insert_lines_up (h : s.resolveExtra task.extra = .ok columns) (l : Location) :
    (insertStatement s l task columns).LinesUp s l task ∧
    (∀ i column sequence, (newRow s l task)[i]? = some (column, .next sequence) ↔
      i = 0 ∧ column = "id" ∧ l.idSequence = some sequence) ∧
    (l.Built → ∀ sequence, l.idSequence = some sequence → IsTableName sequence) ∧
    ∀ (σ : Type) (c : Session) (db : Database σ) (x : σ), c.schema = s → c.completed = false →
      c.sent db l (.enqueue task) x = [insertStatement s l task columns] := by
  have hsize : columns.length = task.extra.size := by
    obtain ⟨-, rfl⟩ := Schema.resolveExtra_eq_ok_iff.1 h
    exact List.length_map _
  have hvalues : (insertStatement s l task columns).values.length = 3 + task.extra.size := by
    rw [insertStatement, List.length_append, List.length_map, hsize]
    rfl
  refine ⟨⟨?_, ?_, hvalues, insertion?_insert h l⟩, fun _ _ _ => getElem?_newRow_eq_next_iff,
    fun hl => hl.isClean.2, ?_⟩
  · rw [valueParts_insert, columnParts_insert, List.length_map, List.length_map, List.length_map,
      List.length_map]
  · rw [slots_insert, hsize]
  · rintro σ c db x rfl hopen
    simp [Session.sent_eq, Session.statements, h, hopen]

/-- The columns of orders, with two extra ones. -/
def orderColumns : Schema := ((Schema.withPayload {} "body").withExtra "tenant id").withExtra "note"

/-- A task with a value for each extra column. -/
def order : NewTask where
  payload := some "two pounds"
  delay := .ofSeconds 5
  extra := .ofList [("tenantid", "7"), ("note", "$4")]

/-- With a sequence and two extra columns, each value stays with its column. -/
theorem order_lines_up :
    orderColumns.resolveExtra order.extra = .ok [("note", "$4"), ("tenantid", "7")] ∧
    (insertStatement orderColumns Session.hostilePlace order
        [("note", "$4"), ("tenantid", "7")]).slots = [1, 2, 3, 4, 5] ∧
    (insertStatement orderColumns Session.hostilePlace order
        [("note", "$4"), ("tenantid", "7")]).insertion? =
      some [("id", .next "taskids"), ("queue_name", .value (.text "x'; DROP TABLE tasks; --")),
        ("body", .value (.text "two pounds")), ("created_at", .now),
        ("next_process_at", .after (.millis (.ofSeconds 5))), ("attempt", .zero),
        ("reenqueue_attempt", .zero), ("total_attempt", .zero), ("note", .value (.text "$4")),
        ("tenantid", .value (.text "7"))] := by
  have hextra : orderColumns.resolveExtra order.extra
      = .ok [("note", "$4"), ("tenantid", "7")] := rfl
  obtain ⟨hst, -⟩ := insert_lines_up hextra Session.hostilePlace
  refine ⟨hextra, hst.slots, ?_⟩
  rw [hst.insertion]
  decide

end

end DurableQueue.Sql
