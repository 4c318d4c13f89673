import DurableQueue.Program
import DurableQueue.Settings.Cell

/-!
# Updates of live settings

An update of a cell is made as a whole or not at all, and its observers are told a refused change
back, in the opposite order.

* `updating` is an update step by step, so that observers may look at the cell whenever they are
  told something; `run_updating`: what they see is the cell as it was before;
* `Updates` says what an update does, by the answers of the observers: nothing, a change, or an
  error. `trySet_updates` is the step lemma;
* `Session` is a cell with its observers in use, from its first value on, and `updates_are_whole`
  the main statement about its runs.
-/

namespace DurableQueue.Cell

variable {α ω σ : Type}

/-! ### Step by step -/

/-- A step of an update. -/
inductive Step (α ω : Type)
  | tell (o : ω) (old new : α)
  /-- Put a new value into the cell and count the change. -/
  | install (new : α)

/-- The type of the answer to a step. -/
@[reducible] def Step.Answer : Step α ω → Type
  | .tell _ _ _ => Except SettingError Unit
  | .install _ => Unit

/-- The steps of updates. -/
@[reducible] def Steps (α ω : Type) : Signature := ⟨Step α ω, Step.Answer⟩

/-- Tell observers a change back. -/
def replaying (old new : α) : List ω → Program (Steps α ω) Unit
  | [] => .done ()
  | o :: os => .ask (.tell o new old) fun _ => replaying old new os

/-- Tell observers a change until one refuses. -/
def proposing (old new : α) : List ω → List ω → Program (Steps α ω) (Except SettingError Unit)
  | [], _ => .done (.ok ())
  | o :: os, accepted => .ask (.tell o old new) fun
    | .ok () => proposing old new os (o :: accepted)
    | .error e => (replaying old new accepted).bind fun _ => .done (.error e)

/-- An update: the change is proposed to all observers, and installed when none has refused. -/
def updating [SettingGroup α] (c : Cell α ω) (new : α) :
    Program (Steps α ω) (Except SettingError String) :=
  if c.value == new then .done (.ok "")
  else (proposing c.value new (c.observers.map (·.2)) []).bind fun
    | .ok () => .ask (.install new) fun _ => .done (.ok (SettingGroup.summary c.value new))
    | .error e => .done (.error e)

/-- The answer of an observer that may look at the cell when it is told a change. -/
abbrev Look (α ω σ : Type) := Cell α ω → Tell α ω σ

/-- A call of an observer: what it was told, the cell as it saw it, and what it has answered. -/
structure Call (α ω : Type) where
  observer : ω
  old : α
  new : α
  seen : Cell α ω
  answer : Except SettingError Unit

/-- An update in progress: the cell, the calls so far, oldest first, and the state of the
observers. -/
structure Progress (α ω σ : Type) where
  cell : Cell α ω
  calls : List (Call α ω)
  state : σ

/-- Answer a step, and note whom it calls. -/
def answer (look : Look α ω σ) : (r : Step α ω) → Progress α ω σ → r.Answer × Progress α ω σ
  | .tell o old new, x =>
    let (r, state) := look x.cell o old new x.state
    (r, { x with calls := x.calls ++ [⟨o, old, new, x.cell, r⟩], state })
  | .install new, x =>
    ((), { x with cell := { x.cell with value := new, version := x.cell.version + 1 } })

/-- Observers that look at one and the same cell, with their calls noted. -/
def watched (look : Look α ω σ) (c : Cell α ω) : Tell α ω (List (Call α ω) × σ) :=
  fun o old new (calls, s) =>
    let (r, s) := look c o old new s
    (r, calls ++ [⟨o, old, new, c, r⟩], s)

section

variable {look : Look α ω σ} {c : Cell α ω} {old new : α}

theorem run_replaying (os : List ω) (calls : List (Call α ω)) (s : σ) :
    (replaying old new os).run (answer look) ⟨c, calls, s⟩
      = ((), ⟨c, (replay (watched look c) old new os (calls, s)).1,
          (replay (watched look c) old new os (calls, s)).2⟩) := by
  induction os generalizing calls s with
  | nil => rfl
  | cons o os ih => exact ih _ _

theorem run_proposing (os accepted : List ω) (calls : List (Call α ω)) (s : σ) :
    (proposing old new os accepted).run (answer look) ⟨c, calls, s⟩
      = ((propose (watched look c) old new os accepted (calls, s)).1,
        ⟨c, (propose (watched look c) old new os accepted (calls, s)).2.1,
          (propose (watched look c) old new os accepted (calls, s)).2.2⟩) := by
  induction os generalizing accepted calls s with
  | nil => rfl
  | cons o os ih =>
    cases htold : look c o old new s with
    | mk r t =>
      cases r with
      | ok u => simp [proposing, propose, Program.run, answer, watched, htold, ih]
      | error e =>
        simp [proposing, propose, Program.run, Program.run_bind, answer, watched, htold,
          run_replaying]

/-- Whenever observers are told something during an update, they see the cell as it was before. -/
theorem run_updating [SettingGroup α] (c : Cell α ω) (new : α) (calls : List (Call α ω)) (s : σ) :
    (updating c new).run (answer look) ⟨c, calls, s⟩
      = ((c.trySet (watched look c) new (calls, s)).1,
        ⟨(c.trySet (watched look c) new (calls, s)).2.1,
          (c.trySet (watched look c) new (calls, s)).2.2.1,
          (c.trySet (watched look c) new (calls, s)).2.2.2⟩) := by
  unfold updating trySet
  split
  · rfl
  · rw [Program.run_bind, run_proposing]
    cases hp : propose (watched look c) c.value new (c.observers.map (·.2)) [] (calls, s) with
    | mk r t =>
      cases r with
      | ok => rfl
      | error e => rfl

end

/-! ### What an update does -/

/-- An observer of a cell is told a change and answers. -/
def call (c : Cell α ω) (old new : α) (o : ω) (answer : Except SettingError Unit) : Call α ω :=
  ⟨o, old, new, c, answer⟩

/-- The calls by which observers are told a change back, with their answers. -/
def callsBack (c : Cell α ω) (old new : α) (os : List ω)
    (answers : List (Except SettingError Unit)) : List (Call α ω) :=
  List.zipWith (c.call new old) os answers

/-- What comes of an update to a new value: the calls, the reply and the cell after it. -/
inductive Updates [SettingGroup α] (c : Cell α ω) (new : α) :
    List (Call α ω) → Except SettingError String → Cell α ω → Prop
  | same (h : c.value = new) : Updates c new [] (.ok "") c
  /-- All observers have accepted the change, in the order of their registration. -/
  | accepted (h : c.value ≠ new) :
      Updates c new (c.observers.map fun o => c.call c.value new o.2 (.ok ()))
        (.ok (SettingGroup.summary c.value new)) { c with value := new, version := c.version + 1 }
  /-- One has refused it, and those before it are told it back, the latest first. -/
  | refused (h : c.value ≠ new) {before after : List ω} {o : ω} {e : SettingError}
      (hobservers : c.observers.map (·.2) = before ++ o :: after)
      {answers : List (Except SettingError Unit)} (hanswers : answers.length = before.length) :
      Updates c new
        (before.map (fun o => c.call c.value new o (.ok ())) ++ c.call c.value new o (.error e) ::
          c.callsBack c.value new before.reverse answers)
        (.error e) c

section

variable {look : Look α ω σ} {c : Cell α ω} {old new : α}

/-- All observers are told a change back, whatever they answer. -/
theorem replay_watched (os : List ω) (calls : List (Call α ω)) (s : σ) :
    ∃ answers t, answers.length = os.length ∧
      replay (watched look c) old new os (calls, s)
        = (calls ++ c.callsBack old new os answers, t) := by
  induction os generalizing calls s with
  | nil => exact ⟨[], s, rfl, by simp [replay, callsBack]⟩
  | cons o os ih =>
    obtain ⟨answers, t, hlength, htold⟩ :=
      ih (calls ++ [⟨o, new, old, c, (look c o new old s).1⟩]) (look c o new old s).2
    refine ⟨(look c o new old s).1 :: answers, t, congrArg (· + 1) hlength, ?_⟩
    exact htold.trans (by simp [callsBack, call])

/-- Observers are told a change until one refuses it. Those who have accepted it, now or before, are
then told it back. -/
theorem propose_watched (look : Look α ω σ) (c : Cell α ω) (old new : α) (os accepted : List ω)
    (calls : List (Call α ω)) (s : σ) :
    (∃ t, propose (watched look c) old new os accepted (calls, s)
      = (.ok (), calls ++ os.map fun o => c.call old new o (.ok ()), t)) ∨
    ∃ before o after e answers t, os = before ++ o :: after ∧
      answers.length = before.length + accepted.length ∧
      propose (watched look c) old new os accepted (calls, s)
        = (.error e, calls ++ (before.map (fun o => c.call old new o (.ok ())) ++
            c.call old new o (.error e) ::
              c.callsBack old new (before.reverse ++ accepted) answers), t) := by
  induction os generalizing accepted calls s with
  | nil => exact .inl ⟨s, by simp [propose]⟩
  | cons o os ih =>
    cases htold : look c o old new s with
    | mk r t =>
      cases r with
      | error e =>
        obtain ⟨answers, t', hlength, hback⟩ :=
          replay_watched accepted (calls ++ [c.call old new o (.error e)]) t
        refine .inr ⟨[], o, os, e, answers, t', rfl, by simpa using hlength, ?_⟩
        simp only [propose, watched, htold]
        exact (congrArg (Prod.mk _) hback).trans (by simp)
      | ok =>
        have hpropose : propose (watched look c) old new (o :: os) accepted (calls, s)
            = propose (watched look c) old new os (o :: accepted)
              (calls ++ [c.call old new o (.ok ())], t) := by
          simp only [propose, watched, htold, call]
        rw [hpropose]
        obtain ⟨t', hall⟩ | ⟨before, o', after, e, answers, t', hos, hlength, hrefused⟩ :=
          ih (o :: accepted) (calls ++ [c.call old new o (.ok ())]) t
        · exact .inl ⟨t', hall.trans (by simp)⟩
        · refine .inr ⟨o :: before, o', after, e, answers, t', by rw [hos]; rfl, ?_, ?_⟩
          · rw [hlength]
            simp only [List.length_cons]
            omega
          · exact hrefused.trans (by simp)

/-- What comes of an update, whatever the observers answer. -/
theorem trySet_updates [SettingGroup α] (look : Look α ω σ) (c : Cell α ω) (new : α)
    (calls : List (Call α ω)) (s : σ) :
    ∃ told reply c' t, c.trySet (watched look c) new (calls, s) = (reply, c', calls ++ told, t) ∧
      Updates c new told reply c' := by
  unfold trySet
  by_cases hsame : c.value = new
  · rw [if_pos (beq_iff_eq.2 hsame)]
    exact ⟨[], .ok "", c, s, by simp, .same hsame⟩
  · rw [if_neg fun h => hsame (beq_iff_eq.1 h)]
    obtain ⟨t, hall⟩ | ⟨before, o, after, e, answers, t, hos, hlength, hrefused⟩ :=
      propose_watched look c c.value new (c.observers.map (·.2)) [] calls s
    · rw [hall]
      refine ⟨_, _, _, t, rfl, ?_⟩
      rw [List.map_map]
      exact .accepted hsame
    · rw [hrefused]
      refine ⟨_, _, _, t, rfl, ?_⟩
      rw [List.append_nil]
      exact .refused hsame hos hlength

/-- A change is reported by a line that is not empty. -/
theorem summary_ne_empty [SettingGroup α] (old new : α) : SettingGroup.summary old new ≠ "" := by
  simp [SettingGroup.summary]

/-- The reply of an update as a text, empty for an error. -/
def replyText : Except SettingError String → String
  | .ok summary => summary
  | .error _ => ""

theorem set_eq [SettingGroup α] (tell : Tell α ω σ) (c : Cell α ω) (new : α) (s : σ) :
    c.set tell new s = (replyText (c.trySet tell new s).1, (c.trySet tell new s).2) := by
  unfold set
  cases c.trySet tell new s with
  | mk reply rest =>
    cases reply with
    | ok => rfl
    | error => rfl

/-- The text is empty exactly when nothing was changed. -/
theorem Updates.replyText_eq_empty_iff [SettingGroup α] {told : List (Call α ω)}
    {reply : Except SettingError String} {c' : Cell α ω} (h : Updates c new told reply c') :
    replyText reply = "" ↔ c' = c := by
  cases h with
  | same => exact iff_of_true rfl rfl
  | accepted hne =>
    refine iff_of_false (summary_ne_empty _ _) fun heq => hne ?_
    exact (congrArg value heq).symm
  | refused => exact iff_of_true rfl rfl

/-- An update counts as a change exactly when it changes the value, and the observers stay. -/
theorem Updates.counts [SettingGroup α] {told : List (Call α ω)}
    {reply : Except SettingError String} {c' : Cell α ω} (h : Updates c new told reply c') :
    c'.version = (if c'.value == c.value then c.version else c.version + 1) ∧
      c'.observers = c.observers ∧ c'.nextObserver = c.nextObserver := by
  cases h with
  | same => simp
  | accepted hne => simp [beq_false_of_ne (Ne.symm hne)]
  | refused => simp

end

/-! ### Cells in use -/

/-- What is done with a cell. -/
inductive Operation (α ω : Type)
  | register (o : ω)
  | unregister (id : ObserverId)
  | set (new : α)
  | trySet (new : α)

/-- A cell in use, with the state of its observers and the calls that they were given. What was
registered and removed and how often the value has changed is noted for the sake of statements:
nothing reads it. -/
structure Session (α ω σ : Type) where
  cell : Cell α ω
  calls : List (Call α ω) := []
  state : σ
  /-- All observers that were ever registered, in order. -/
  registered : List ω := []
  /-- The registrations that were removed. -/
  removed : List ObserverId := []
  changes : Nat := 0

namespace Session

variable [SettingGroup α]

/-- A cell with its first value. -/
def start (value : α) (state : σ) : Session α ω σ := { cell := .new value, state }

/-- Note the outcome of an update. -/
def afterUpdate (x : Session α ω σ) (outcome : Cell α ω × List (Call α ω) × σ) : Session α ω σ :=
  let (cell, calls, state) := outcome
  { x with
    cell, calls, state
    changes := if cell.value == x.cell.value then x.changes else x.changes + 1 }

/-- Do something with a cell. -/
def step (look : Look α ω σ) (x : Session α ω σ) : Operation α ω → Session α ω σ
  | .register o => { x with cell := (x.cell.register o).2, registered := x.registered ++ [o] }
  | .unregister id =>
    { x with
      cell := (x.cell.unregister id).2
      removed := if id < x.registered.length then id :: x.removed else x.removed }
  | .set new => x.afterUpdate (x.cell.set (watched look x.cell) new (x.calls, x.state)).2
  | .trySet new => x.afterUpdate (x.cell.trySet (watched look x.cell) new (x.calls, x.state)).2

/-- Do several things with a cell. -/
def run (look : Look α ω σ) (x : Session α ω σ) (operations : List (Operation α ω)) :
    Session α ω σ :=
  operations.foldl (step look) x

/-- The observers that were registered and not removed, in the order of their registration. -/
def standing (x : Session α ω σ) : List (ObserverId × ω) :=
  (x.registered.zipIdx.map fun (o, id) => (id, o)).filter fun o => !x.removed.contains o.1

/-- What a cell keeps in use. -/
structure Keeps (x : Session α ω σ) : Prop where
  version : x.cell.version = x.changes
  observers : x.cell.observers = x.standing
  nextObserver : x.cell.nextObserver = x.registered.length
  removed : ∀ id ∈ x.removed, id < x.registered.length

variable {look : Look α ω σ} {x : Session α ω σ}

omit [SettingGroup α] in
theorem keeps_start (value : α) (state : σ) : (start value state : Session α ω σ).Keeps :=
  ⟨rfl, rfl, rfl, fun _ h => nomatch h⟩

theorem Keeps.register (h : x.Keeps) (o : ω) : (x.step look (.register o)).Keeps := by
  refine ⟨h.version, ?_, ?_, fun id hid => ?_⟩
  · -- the number of the new observer is none of those that were removed
    have hnew : x.registered.length ∉ x.removed :=
      fun hid => Nat.lt_irrefl _ (h.removed _ hid)
    show x.cell.observers ++ [(x.cell.nextObserver, o)] = _
    rw [h.observers, h.nextObserver]
    simp [step, standing, List.zipIdx_append, hnew]
  · show x.cell.nextObserver + 1 = _
    simp [step, h.nextObserver]
  · have hlt : id < x.registered.length := h.removed id hid
    show id < (x.registered ++ [o]).length
    rw [List.length_append]
    exact Nat.lt_add_right 1 hlt

theorem Keeps.unregister (h : x.Keeps) (id : ObserverId) :
    (x.step look (.unregister id)).Keeps := by
  refine ⟨h.version, ?_, h.nextObserver, fun id' hid' => ?_⟩
  · show x.cell.observers.filter (·.1 != id) = _
    rw [h.observers, standing, List.filter_filter]
    refine List.filter_congr fun o ho => ?_
    have hnumber : o.1 < x.registered.length := by
      obtain ⟨⟨o', n⟩, hn, rfl⟩ := List.mem_map.1 ho
      exact (List.mem_zipIdx' hn).1
    simp only [step]
    split
    next => by_cases heq : o.1 = id <;> simp [heq]
    next hle =>
      have hne : o.1 ≠ id := fun heq => hle (heq ▸ hnumber)
      simp [hne]
  · simp only [step] at hid' ⊢
    split at hid'
    next hlt =>
      rcases List.mem_cons.1 hid' with rfl | hid'
      · exact hlt
      · exact h.removed id' hid'
    next => exact h.removed id' hid'

theorem Keeps.afterUpdate (h : x.Keeps) {new : α} {told : List (Call α ω)}
    {reply : Except SettingError String} {c : Cell α ω} (hc : Updates x.cell new told reply c)
    (calls : List (Call α ω)) (state : σ) : (x.afterUpdate (c, calls, state)).Keeps := by
  obtain ⟨hversion, hobservers, hnext⟩ := hc.counts
  refine ⟨?_, hobservers.trans h.observers, hnext.trans h.nextObserver, h.removed⟩
  show c.version = if c.value == x.cell.value then x.changes else x.changes + 1
  rw [hversion, h.version]

theorem Keeps.step (h : x.Keeps) (look : Look α ω σ) (operation : Operation α ω) :
    (x.step look operation).Keeps := by
  cases operation with
  | register o => exact h.register o
  | unregister id => exact h.unregister id
  | trySet new =>
    obtain ⟨told, reply, c, state, hset, hc⟩ := trySet_updates look x.cell new x.calls x.state
    show (x.afterUpdate (x.cell.trySet (watched look x.cell) new (x.calls, x.state)).2).Keeps
    rw [hset]
    exact h.afterUpdate hc _ _
  | set new =>
    obtain ⟨told, reply, c, state, hset, hc⟩ := trySet_updates look x.cell new x.calls x.state
    show (x.afterUpdate (x.cell.set (watched look x.cell) new (x.calls, x.state)).2).Keeps
    rw [set_eq, hset]
    exact h.afterUpdate hc _ _

theorem Keeps.run (h : x.Keeps) (look : Look α ω σ) (operations : List (Operation α ω)) :
    (x.run look operations).Keeps := by
  induction operations generalizing x with
  | nil => exact h
  | cons operation operations ih => exact ih (h.step look operation)

/-- What is true of a cell in use that is to be given a new value. -/
structure Whole (look : Look α ω σ) (x : Session α ω σ) (new : α) : Prop where
  /-- The version counts the changes of the value. -/
  version : x.cell.version = x.changes
  /-- Who is told changes, in which order. -/
  observers : x.cell.observers = x.standing
  /-- What comes of the update, with and without an error for a refusal. It makes no difference
  that the observers look at the cell while it is under way. -/
  update : ∃ told reply c state,
    x.cell.trySet (watched look x.cell) new (x.calls, x.state)
      = (reply, c, x.calls ++ told, state) ∧
    x.cell.set (watched look x.cell) new (x.calls, x.state)
      = (replyText reply, c, x.calls ++ told, state) ∧
    (updating x.cell new).run (answer look) ⟨x.cell, x.calls, x.state⟩
      = (reply, ⟨c, x.calls ++ told, state⟩) ∧
    Updates x.cell new told reply c ∧ (replyText reply = "" ↔ c = x.cell)

end Session

/-- **Updates are whole.** Whatever was done with a cell since its first value, and whatever its
observers answer: the version counts the changes, and the next update is made as a whole or not at
all, in view of all observers that are still registered. -/
theorem updates_are_whole [SettingGroup α] (look : Look α ω σ) (first : α) (state : σ)
    (operations : List (Operation α ω)) (new : α) :
    ((Session.start first state).run look operations).Whole look new := by
  have hkeeps := (Session.keeps_start first state).run look operations
  generalize (Session.start first state).run look operations = x at hkeeps ⊢
  obtain ⟨told, reply, c, state, htry, hc⟩ := trySet_updates look x.cell new x.calls x.state
  refine ⟨hkeeps.version, hkeeps.observers, told, reply, c, state, htry, ?_, ?_, hc,
    hc.replyText_eq_empty_iff⟩
  · rw [set_eq, htry]
  · rw [run_updating, htry]

end DurableQueue.Cell
