import DurableQueue.Proofs.Store.Statements
import DurableQueue.Store.Sql.Session

/-!
# What sessions send

* `Session.perform` makes a call of a store on a session, and `Session.sent` lists what is sent for
  it, whatever the database replies (`Session.sent_eq`).

**Texts are blind to values** (`Session.texts_are_blind`): two calls with the same names send the
same texts, and all else of the calls is sent beside them.
-/

namespace DurableQueue.Sql

open Identifier

/-- A database that keeps what is sent to it. -/
def Database.recording {σ : Type} (db : Database σ) : Database (List Statement × σ) := fun st s =>
  ((db st s.2).1, s.1 ++ [st], (db st s.2).2)

namespace Session

variable {σ τ : Type}

/-- Make a call of a store on a session. -/
def perform (c : Session) (db : Database σ) (l : Location) :
    (call : StoreCall) → σ → call.Answer × Session × σ
  | .begin, s => c.begin db s
  | .pick failure, s => let (r, s) := c.pick db l failure s; (r, c, s)
  | .enqueue task, s => let (r, s) := c.enqueue db l task s; (r, c, s)
  | .delete id, s => let (r, s) := c.delete db l id s; (r, c, s)
  | .reenqueue id delay, s => let (r, s) := c.reenqueue db l id delay s; (r, c, s)
  | .commit, s => c.commit db s
  | .release, s => ((), c.abandon, s)

/-- The statements that are sent for a call. -/
def sent (c : Session) (db : Database σ) (l : Location) (call : StoreCall) (s : σ) :
    List Statement :=
  (c.perform db.recording l call ([], s)).2.2.1

/-- The statements for a call, by the call alone. -/
def statements (c : Session) (l : Location) : StoreCall → List Statement
  | .begin => (if c.unsettled then [.ofWords "ROLLBACK"] else []) ++ [.ofWords "BEGIN"]
  | .pick failure => if c.completed then [] else [pickStatement c.schema l failure]
  | .enqueue task =>
    match c.schema.resolveExtra task.extra with
    | .error _ => []
    | .ok columns => if c.completed then [] else [insertStatement c.schema l task columns]
  | .delete id => if c.completed then [] else [deleteStatement c.schema l id]
  | .reenqueue id delay => if c.completed then [] else [reenqueueStatement c.schema l id delay]
  | .commit => if c.completed then [] else [.ofWords "COMMIT"]
  | .release => []

theorem recorded_send (db : Database σ) (st : Statement) (s : List Statement × σ) :
    (send db.recording st s).2.1 = s.1 ++ [st] := by
  unfold send Database.recording
  cases (db st s.2).1 <;> rfl

theorem recorded_fetch (db : Database σ) (st : Statement) (s : List Statement × σ) :
    (fetch db.recording st s).2.1 = s.1 ++ [st] := by
  unfold fetch Database.recording
  cases (db st s.2).1 <;> rfl

theorem recorded_change (db : Database σ) (st : Statement) (s : List Statement × σ) :
    (change db.recording st s).2.1 = s.1 ++ [st] := by
  unfold change Database.recording
  cases (db st s.2).1 <;> rfl

/-- What is sent for a call does not depend on what the database replies. -/
theorem sent_eq (c : Session) (db : Database σ) (l : Location) (call : StoreCall) (s : σ) :
    c.sent db l call s = c.statements l call := by
  simp only [sent, perform, statements]
  cases call with
  | begin =>
    simp only [begin]
    have hbegin := recorded_send db (.ofWords "BEGIN")
    cases c.unsettled with
    | false =>
      specialize hbegin ([], s)
      cases hsent : send db.recording (.ofWords "BEGIN") ([], s) with
      | mk r t => cases r <;> simp_all
    | true =>
      have hrollback := recorded_send db (.ofWords "ROLLBACK") ([], s)
      cases hfirst : send db.recording (.ofWords "ROLLBACK") ([], s) with
      | mk r t =>
        specialize hbegin t
        cases hsent : send db.recording (.ofWords "BEGIN") t with
        | mk r t' => cases r <;> simp_all
  | pick failure =>
    simp only [pick]
    have hfetch := recorded_fetch db (pickStatement c.schema l failure) ([], s)
    cases hsent : fetch db.recording (pickStatement c.schema l failure) ([], s) with
    | mk r t => cases c.completed <;> rcases r with _ | (_ | _) <;> simp_all
  | enqueue task =>
    simp only [enqueue]
    cases c.schema.resolveExtra task.extra with
    | error e => rfl
    | ok columns =>
      have hfetch := recorded_fetch db (insertStatement c.schema l task columns) ([], s)
      cases hsent : fetch db.recording (insertStatement c.schema l task columns) ([], s) with
      | mk r t => cases c.completed <;> rcases r with _ | (_ | _) <;> simp_all
  | delete id =>
    have hchange := recorded_change db (deleteStatement c.schema l id) ([], s)
    cases hc : c.completed <;> simp_all [delete]
  | reenqueue id delay =>
    have hchange := recorded_change db (reenqueueStatement c.schema l id delay) ([], s)
    cases hc : c.completed <;> simp_all [reenqueue]
  | commit =>
    simp only [commit, complete]
    have hcommit := recorded_send db (.ofWords "COMMIT") ([], s)
    cases hsent : send db.recording (.ofWords "COMMIT") ([], s) with
    | mk r t => cases c.completed <;> cases r <;> simp_all
  | release => rfl

variable {c c' : Session} {l l' : Location} {call call' : StoreCall}

theorem statementOf_of_mem {st : Statement} (h : st ∈ c.statements l call) :
    StatementOf c.schema l call st := by
  cases call with
  | begin =>
    simp only [statements, List.mem_append, List.mem_singleton] at h
    rcases h with h | rfl
    · split at h
      · exact List.mem_singleton.1 h ▸ .rollback
      · cases h
    · exact .begin
  | release => cases h
  | enqueue task =>
    simp only [statements] at h
    split at h
    next => cases h
    next columns hcolumns =>
      split at h
      · cases h
      · exact List.mem_singleton.1 h ▸ .insert hcolumns
  | _ =>
    simp only [statements] at h
    split at h
    · cases h
    · rw [List.mem_singleton.1 h]
      constructor

/-- An open session sends one statement for a call on rows. -/
theorem length_statements (hcall : call.IsDeclared c.schema) (hopen : c.completed = false) :
    (c.statements l call).length = 1 := by
  cases call with
  | enqueue task => simp [statements, hopen, Schema.resolveExtra_eq_ok_iff.2 ⟨hcall, rfl⟩]
  | pick | delete | reenqueue => simp [statements, hopen]
  | begin | commit | release => exact hcall.elim

/-- Alike calls send equally many statements. -/
theorem length_of_alike (hcalls : call.Alike call') (hschema : c'.schema = c.schema)
    (hcompleted : c'.completed = c.completed) :
    (c'.statements l' call').length = (c.statements l call).length := by
  cases hcalls with
  | @enqueue task task' hkeys =>
    have hresolved (task : NewTask) : (∃ columns, c.schema.resolveExtra task.extra = .ok columns) ↔
        ∀ name ∈ task.extra.keys.map columnName, name ∈ c.schema.extra := by
      simp only [Schema.resolveExtra_eq_ok_iff, List.forall_mem_map, exists_and_left, exists_eq,
        and_true]
    -- both tasks are resolved, or none of them
    have hboth := (hresolved task').trans (hkeys ▸ (hresolved task).symm)
    simp only [statements, hschema, hcompleted]
    cases hcolumns : c.schema.resolveExtra task.extra <;>
      cases hcolumns' : c.schema.resolveExtra task'.extra <;> simp_all
    split <;> rfl
  | pick | delete | reenqueue =>
    simp only [statements, hcompleted]
    split <;> rfl

theorem map_pieces_of_alike (hcalls : call.Alike call') (hschema : c'.schema = c.schema)
    (hcompleted : c'.completed = c.completed) (htable : l'.table = l.table)
    (hsequence : l'.idSequence = l.idSequence) :
    (c'.statements l' call').map (·.pieces) = (c.statements l call).map (·.pieces) := by
  have hlength : (c'.statements l' call').length = (c.statements l call).length :=
    length_of_alike hcalls hschema hcompleted
  refine List.ext_getElem (by simp [hlength]) fun i hi hi' => ?_
  rw [List.getElem_map, List.getElem_map]
  have hst' := statementOf_of_mem (List.getElem_mem (by simpa using hi))
  rw [hschema] at hst'
  exact (statementOf_of_mem (List.getElem_mem _)).pieces_eq hst' hcalls htable hsequence

/-- **Texts are blind to values.** Two calls with one schema, table and sequence that have the same
extra columns and the same kind of failure delay send the same texts, part by part, whatever their
queues, payloads, rows, delays and extra values are and whatever the databases reply. These values
are sent beside the text, which is a template of fixed words with clean names in its gaps. -/
theorem texts_are_blind (hs : c.schema.Built) (hl : l.Built) (hcalls : call.Alike call')
    (hschema : c'.schema = c.schema) (hcompleted : c'.completed = c.completed)
    (htable : l'.table = l.table) (hsequence : l'.idSequence = l.idSequence)
    (db : Database σ) (db' : Database τ) (s : σ) (t : τ) :
    (c'.sent db' l' call' t).map (·.pieces) = (c.sent db l call s).map (·.pieces) ∧
    (c'.sent db' l' call' t).map (·.text) = (c.sent db l call s).map (·.text) ∧
    (call.IsDeclared c.schema → c.completed = false → (c.sent db l call s).length = 1) ∧
    ∀ st ∈ c.sent db l call s, st.Sound (call.bound l) ∧
      ∀ (c'' : Session) (l'' : Location) (call'' : StoreCall), call.SameForm call'' →
        c''.schema.extra.length = c.schema.extra.length →
        l''.idSequence.isSome = l.idSequence.isSome →
        ∀ st'' ∈ c''.sent db' l'' call'' t, st''.template = st.template := by
  simp only [sent_eq]
  have hpieces : (c'.statements l' call').map (·.pieces) = (c.statements l call).map (·.pieces) :=
    map_pieces_of_alike hcalls hschema hcompleted htable hsequence
  refine ⟨hpieces, ?_, length_statements, fun st hst => ⟨?_, ?_⟩⟩
  · have htext := congrArg
      (List.map fun parts => String.ofList (collapse (parts.flatMap Piece.text))) hpieces
    rwa [List.map_map, List.map_map] at htext
  · exact (statementOf_of_mem hst).sound hs.isClean hl.isClean
  · intro c'' l'' call'' hform hextra hsome st'' hst''
    exact (statementOf_of_mem hst).template_eq (statementOf_of_mem hst'') hform hextra hsome

/-- A session with an extra column, whose name is cleaned. -/
def tenants : Session where
  schema := ({} : Schema).withExtra "tenant id"
  completed := false

/-- A queue whose name looks like the end of a statement. -/
def hostilePlace : Location :=
  (Location.of "x'; DROP TABLE tasks; --" "public.tasks").withIdSequence "task ids"

/-- A task whose values look like parts of statements. -/
def hostileTask : NewTask where
  payload := some "$1'); DROP TABLE tasks; --"
  extra := .ofList [("tenant id", "7'; --")]

/-- Another queue with the same table and sequence. -/
def plainPlace : Location := (Location.of "orders" "public.tasks;").withIdSequence "taskids"

/-- Another task with a value for the same column. -/
def plainTask : NewTask where
  payload := none
  delay := .ofSeconds 5
  extra := .ofList [("tenantid", "8")]

/-- A database that fails and counts its failures. -/
def down : Database Nat := fun _ n => (.failed "down", n + 1)

/-- A database that does nothing. -/
def idle : Database Unit := fun _ s => (.done none 0, s)

/-- The hostile values are sent beside the text that the other task has as well. -/
theorem hostile_values_stay_out :
    tenants.schema.Built ∧ hostilePlace.Built ∧
    (StoreCall.enqueue hostileTask).Alike (.enqueue plainTask) ∧
    plainPlace.table = hostilePlace.table ∧ plainPlace.idSequence = hostilePlace.idSequence ∧
    (tenants.sent down plainPlace (.enqueue plainTask) 0).map (·.text) =
      (tenants.sent idle hostilePlace (.enqueue hostileTask) ()).map (·.text) ∧
    (tenants.sent idle hostilePlace (.enqueue hostileTask) ()).map (·.text) =
      ["INSERT INTO public.tasks (id, queue_name, payload, created_at, next_process_at, " ++
        "attempt, reenqueue_attempt, total_attempt, tenantid) VALUES (nextval('taskids'), $1, " ++
        "$2, now(), now() + $3::float8 * interval '1 millisecond', 0, 0, 0, $4) RETURNING id"] := by
  have hs : tenants.schema.Built := .withExtra .default "tenant id"
  have hl : hostilePlace.Built := .withIdSequence (.of _ _) "task ids"
  have hcalls : (StoreCall.enqueue hostileTask).Alike (.enqueue plainTask) := .enqueue (by decide)
  have htable : plainPlace.table = hostilePlace.table := by decide
  have hsequence : plainPlace.idSequence = hostilePlace.idSequence := by decide
  have hschema : tenants.schema = tenants.schema := rfl
  obtain ⟨-, htext, -⟩ := texts_are_blind hs hl hcalls hschema rfl htable hsequence idle down () 0
  exact ⟨hs, hl, hcalls, htable, hsequence, htext, by decide +kernel⟩

end Session

end DurableQueue.Sql
