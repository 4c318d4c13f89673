import DurableQueue.Proofs.Works.Watch

/-!
# No task is lost

Whatever moves the works make, with whatever faults: a row that was added stays until its consumer
has finished a task that was picked from it, or until somebody else removes it.

* `Programs` says that what is in progress keeps custody. With right books it makes the invariant
  of the works, `Sound`;
* `custodies` is the watch over custody, so that every move keeps `Programs`. Moves keep the books
  right by the request that they make (`Sound.books_of_asked`), or else by a job that they begin or
  a store that they clear (`Sound.books_of_not_asked`);
* `step_sound` and `run_sound` put both together;
* `no_task_is_lost` is the main statement.
-/

namespace DurableQueue.Works

variable {π ω υ : Type} {plan : Plan π ω υ} {w : State π ω υ}

/-- Everything in progress keeps custody. -/
structure Programs (w : State π ω υ) : Prop where
  workers : w.service.EveryLoop fun queue shard i =>
    Loop.InCustody (w.custody (.worker queue shard i))
  errands : ∀ i a, w.errands[i]? = some a → Activity.InCustody (w.custody (.errand i)) a

/-- The invariant of the works. -/
structure Sound (plan : Plan π ω υ) (w : State π ω υ) : Prop where
  books : Books plan w
  programs : Programs w

/-! ### Programs -/

/-- The watch over custody. -/
def custodies : Watch π Custody where
  Permits := Custody.Permits
  note := Custody.note
  job place record := ⟨some (place, record), false⟩

theorem custodies_lawful : (custodies : Watch π Custody).Lawful where
  round := roundAt_obeys
  job _ _ _ := jobAt_obeys rfl
  producer := producerAt_obeys

theorem programs_iff_watched : Programs w ↔ Watched custodies w.custody w :=
  ⟨fun h => ⟨h.workers, h.errands⟩, fun h => ⟨h.workers, h.errands⟩⟩

/-- The custody that is kept in the state is what the watch remembers. -/
theorem after_custody (plan : Plan π ω υ) (w : State π ω υ) (move : Move π ω) :
    custodies.after plan w w.custody move = (w.step plan move).custody := by
  match hasked : w.asked plan move with
  | some (actor, luck, d) =>
    rw [Watch.after_of_asked hasked, (step_of_asked hasked).2.2.1]
    funext b
    exact (custody_serve luck b).symm
  | none =>
    by_cases hbegin : ∃ i, move = .beginJob i
    · obtain ⟨i, rfl⟩ := hbegin
      match hjob : w.jobs[i]? with
      | none =>
        rw [Watch.after_of_none hasked (by simp [State.begun?, hjob])]
        simp only [State.step, State.beginJob, hjob]
      | some (place, record) =>
        have hbegun : w.begun? (.beginJob i : Move π ω) = some (i, place, record) := by
          simp [State.begun?, hjob]
        rw [Watch.after_of_begun hasked hbegun]
        simp only [State.step, State.beginJob, hjob]
        rfl
    · rw [Watch.after_of_none hasked (State.begun?_of_ne fun i heq => hbegin ⟨i, heq⟩)]
      by_cases hclear : ∃ n, move = .clear n
      · obtain ⟨n, rfl⟩ := hclear
        rfl
      · obtain ⟨-, -, hcustody, -⟩ := step_of_not_asked hasked (fun n heq => hclear ⟨n, heq⟩)
          fun i heq => hbegin ⟨i, heq⟩
        exact hcustody.symm

/-! ### Books -/

namespace Sound

/-- What a user removes from a store is on record. -/
theorem books_callDirectly (h : Sound plan w) (user : Nat) (place : Place) (c : StoreCall)
    (luck : Luck) : Books plan (w.callDirectly plan user place c luck) := by
  refine h.books.call (.user user) luck place c (plan.direct place c) (fun n row => ?_)
    (fun id hc => ?_) rfl
  · cases c with
    | delete id =>
      constructor <;> intro hmem <;> cases List.mem_singleton.1 hmem
    | _ => exact ⟨List.not_mem_nil, List.not_mem_nil⟩
  · subst hc
    exact .inr List.mem_cons_self

/-- A request keeps the books right, since who makes it has the custody that it takes. -/
theorem books_of_asked (h : Sound plan w) {move : Move π ω} {actor : Actor} {luck : Luck}
    {d : Deed π} (hasked : w.asked plan move = some (actor, luck, d)) :
    Books plan (w.step plan move) := by
  by_cases huser : ∃ n, actor = .user n
  · obtain ⟨n, rfl⟩ := huser
    obtain ⟨place, c, rfl, -⟩ := State.call_of_user hasked
    exact h.books_callDirectly n place c luck
  · obtain ⟨hstores, hjobs, hcustody, hhistory⟩ := step_of_asked hasked
    have hactor (n : Nat) : actor ≠ .user n := fun heq => huser ⟨n, heq⟩
    have hpermits : (w.custody actor).Permits d :=
      (programs_iff_watched.1 h.programs).permits custodies_lawful hasked hactor
    exact (h.books.serve hpermits luck).congr (hhistory hactor) hcustody hjobs hstores

/-- A job takes the custody of its task over. -/
theorem books_beginJob (h : Sound plan w) (i : Nat) : Books plan (w.beginJob plan i) := by
  unfold State.beginJob
  split
  · exact h.books
  next place record hjob =>
    have hmem : (place, record) ∈ w.jobs := List.mem_of_getElem? hjob
    refine ⟨fun b => ?_, fun place' record' hmem' => ?_, h.books.handedOut, h.books.fresh,
      h.books.kept⟩
    · show Backed plan w.history (if b = .errand w.errands.length then _ else w.custody b)
      split
      · refine ⟨fun _ _ hheld => ?_, fun _ _ _ hfinished => nomatch hfinished⟩
        cases hheld
        exact h.books.jobs place record hmem
      · exact h.books.backed b
    · exact h.books.jobs place' record' (List.mem_of_mem_eraseIdx hmem')

theorem books_clear (h : Sound plan w) (store : Nat) : Books plan (w.clear store) := by
  refine h.books.grow [.cleared store] rfl rfl rfl (fun n => ?_) (fun n row hmem => ?_)
    (fun n row hmem => ?_) fun n row hrow => ?_
  · show _ ≤ (if n = store then (w.stores store).clear else w.stores n).lastId
    split
    next heq =>
      subst heq
      exact Nat.le_refl _
    next => exact Nat.le_refl _
  · cases List.mem_singleton.1 hmem
  · cases List.mem_singleton.1 hmem
  · by_cases heq : n = store
    · subst heq
      exact .inr (.inr (.inr List.mem_cons_self))
    · refine .inl ⟨row, ?_, .refl row⟩
      show row ∈ (if n = store then _ else w.stores n : Store).rows
      rwa [if_neg heq]

theorem books_of_not_asked (h : Sound plan w) {move : Move π ω}
    (hasked : w.asked plan move = none) : Books plan (w.step plan move) := by
  by_cases hbegin : ∃ i, move = .beginJob i
  · obtain ⟨i, rfl⟩ := hbegin
    exact h.books_beginJob i
  by_cases hclear : ∃ n, move = .clear n
  · obtain ⟨n, rfl⟩ := hclear
    exact h.books_clear n
  obtain ⟨hstores, hjobs, hcustody, hhistory⟩ := step_of_not_asked hasked
    (fun n heq => hclear ⟨n, heq⟩) fun i heq => hbegin ⟨i, heq⟩
  exact h.books.congr hhistory hcustody hjobs hstores

end Sound

/-- Every move keeps the works sound. -/
theorem step_sound (h : Sound plan w) (move : Move π ω) : Sound plan (w.step plan move) := by
  constructor
  · match hasked : w.asked plan move with
    | some (actor, luck, d) => exact h.books_of_asked hasked
    | none => exact h.books_of_not_asked hasked
  · rw [programs_iff_watched, ← after_custody]
    exact (programs_iff_watched.1 h.programs).step custodies_lawful move

theorem run_sound (h : Sound plan w) (moves : List (Move π ω)) : Sound plan (w.run plan moves) := by
  induction moves generalizing w with
  | nil => exact h
  | cons move moves ih => exact ih (step_sound h move)

theorem initial_sound (plan : Plan π ω υ) (shards : List ShardId) (observers : υ)
    (stores : Nat → Store) : Sound plan (.initial shards observers stores) := by
  refine ⟨⟨fun _ => ?_, ?_, ?_, .nil, ?_⟩, ⟨Service.everyLoop_new shards, ?_⟩⟩
  · exact ⟨(fun _ _ h => nomatch h), fun _ _ h => nomatch h⟩
  · exact fun _ _ h => nomatch h
  · exact fun _ _ h => nomatch h
  · intro later n row before hhistory
    exact absurd hhistory.symm (List.append_ne_nil_of_right_ne_nil later (List.cons_ne_nil _ _))
  · exact fun _ _ h => nomatch h

/-- **No task is lost.** A row that was added in a run is still in its store, or the consumer has
since finished a task that was picked from it, or it was removed by a call that no worker has
made. -/
theorem no_task_is_lost (plan : Plan π ω υ) (shards : List ShardId) (observers : υ)
    (stores : Nat → Store) (moves : List (Move π ω)) {later before : List Event} {n : Nat}
    {row : Row} (hadded : ((State.initial shards observers stores).run plan moves).history
      = later ++ .enqueued n row :: before) :
    Accounted (((State.initial shards observers stores).run plan moves).stores n) n row later :=
  (run_sound (initial_sound plan shards observers stores) moves).books.kept later n row before
    hadded

/-- A service that works off the one order in its store. -/
def workedOff : State String Unit Unit :=
  (State.initial ["main"] () fun _ => .empty {}).run
    ⟨fun _ => .text, fun _ => 0, fun _ _ _ _ => (.ok (), ())⟩
    ([.register ⟨⟨"orders", "tasks", none⟩, {}⟩ false, .startAll,
      .call 0 ⟨"main", "orders", "tasks", none⟩ .begin ⟨.epoch, none, .result .fail⟩,
      .call 0 ⟨"main", "orders", "tasks", none⟩ (.enqueue {}) ⟨.epoch, none, .result .fail⟩] ++
    List.replicate 17 (.turn "orders" "main" 0 ⟨.epoch, none, .result .finish⟩))

set_option maxRecDepth 4000 in
theorem workedOff_is_accounted : ∃ added picked,
    workedOff.history = [.finished 0 picked, .picked 0 picked] ++ .enqueued 0 added :: [] ∧
      (workedOff.stores 0).rows = [] ∧
      Accounted (workedOff.stores 0) 0 added [.finished 0 picked, .picked 0 picked] :=
  ⟨_, _, rfl, rfl, no_task_is_lost _ _ _ _ _ rfl⟩

end DurableQueue.Works
