import DurableQueue.Listener.Composite
import Mathlib.Data.List.Basic

/-!
# Nested listeners

An event reaches the leaves of a composite listener like a scope that they share: one that opens it
from the first to the last, one that closes it from the last to the first, however deep composites
are nested.

* `Listener.inOrder` is the order in which one composite tells its children;
* `Listener.receivers_eq`: a tree is told in that order too, leaf by leaf;
* `Listener.tell` is what comes of an event when each leaf takes it in some way of its own, and
  `Listener.tell_eq_foldl` says that it is what the receivers make of it;
* `Listener.flat` is the composite of the leaves alone, and `Listener.events_nest_like_scopes` is
  the main statement.
-/

namespace DurableQueue.Listener

variable {ι σ : Type}

/-- What holds of leaves, and of a composite if it holds of its children, holds of all listeners. -/
@[elab_as_elim, induction_eliminator]
theorem induction {motive : Listener ι → Prop} (leaf : ∀ i, motive (.leaf i))
    (composite : ∀ children, (∀ c ∈ children, motive c) → motive (.composite children)) :
    ∀ l, motive l
  | .leaf i => leaf i
  | .composite children => composite children fun c _ => induction leaf composite c

/-! ### Orders -/

/-- From the first to the last, or from the last to the first. -/
def inOrder {α : Type} (opens : Bool) (as : List α) : List α := if opens then as else as.reverse

section

variable {α β : Type} {opens : Bool} {as : List α}

theorem mem_inOrder {a : α} : a ∈ inOrder opens as ↔ a ∈ as := by cases opens <;> simp [inOrder]

theorem inOrder_perm (opens : Bool) (as : List α) : (inOrder opens as).Perm as := by
  cases opens
  · exact List.reverse_perm as
  · exact .refl as

theorem inOrder_map (f : α → β) : inOrder opens (as.map f) = (inOrder opens as).map f := by
  cases opens <;> simp [inOrder]

/-- Parts in an order, each in that order, are the whole in that order. -/
theorem inOrder_flatMap (f : α → List β) :
    inOrder opens (as.flatMap f) = (inOrder opens as).flatMap fun a => inOrder opens (f a) := by
  cases opens
  · exact List.reverse_flatMap
  · rfl

end

/-! ### The leaves that an event reaches -/

theorem leaves_composite (children : List (Listener ι)) :
    leaves (.composite children) = children.flatMap leaves := by
  rw [leaves]
  induction children with
  | nil => rfl
  | cons c cs ih => rw [leavesOf, ih, List.flatMap_cons]

/-- A composite passes an event on to one child after the other. -/
theorem receivers_composite (opens : Bool) (children : List (Listener ι)) :
    receivers opens (.composite children)
      = (inOrder opens children).flatMap (receivers opens) := by
  rw [receivers]
  induction children with
  | nil => cases opens <;> rfl
  | cons c cs ih =>
    rw [receiversOf, ih]
    cases opens <;> simp [inOrder]

/-- The leaves are reached in the order in which each composite tells its children. -/
theorem receivers_eq (opens : Bool) (l : Listener ι) :
    l.receivers opens = inOrder opens l.leaves := by
  induction l with
  | leaf i => cases opens <;> rfl
  | composite children ih =>
    rw [receivers_composite, leaves_composite, inOrder_flatMap]
    exact List.flatMap_congr fun c hc => ih c (mem_inOrder.1 hc)

/-! ### What comes of an event -/

/-- What comes of an event when each leaf takes it in its way, and a composite tells its children
one after the other. -/
def tell (take : ι → σ → σ) (opens : Bool) : Listener ι → σ → σ
  | .leaf i => take i
  | .composite children => fun s =>
    (inOrder opens (children.map fun c => tell take opens c)).foldl (fun s telling => telling s) s

theorem tell_eq_foldl (take : ι → σ → σ) (opens : Bool) (l : Listener ι) (s : σ) :
    l.tell take opens s = (l.receivers opens).foldl (fun s i => take i s) s := by
  induction l generalizing s with
  | leaf i => rw [tell, receivers, List.foldl_cons, List.foldl_nil]
  | composite children ih =>
    simp only [tell, receivers_composite, inOrder_map, List.foldl_map, List.foldl_flatMap]
    exact List.foldl_ext _ _ s fun s c hc => ih c (mem_inOrder.1 hc) s

/-- The composite of the leaves of a listener. -/
def flat (l : Listener ι) : Listener ι := .composite (l.leaves.map .leaf)

theorem leaves_flat (l : Listener ι) : l.flat.leaves = l.leaves := by
  rw [flat, leaves_composite, List.flatMap_map]
  exact List.flatMap_singleton' l.leaves

theorem tell_flat (take : ι → σ → σ) (opens : Bool) (l : Listener ι) (s : σ) :
    l.flat.tell take opens s = l.tell take opens s := by
  rw [tell_eq_foldl, tell_eq_foldl, receivers_eq, receivers_eq, leaves_flat]

/-- **Nested listeners are scopes.** However deep composites are nested, `picked` and `started`
reach every leaf once from left to right, and the events that close a scope reach every leaf once
from right to left; of the events of a worker `started` alone opens a scope. Whatever the leaves
make of an event, the listener does the same as the composite of its leaves. -/
theorem events_nest_like_scopes (l : Listener ι) :
    (∀ e : TaskEvent, l.receivers e.opens = match e with
      | .picked _ | .started => l.leaves
      | .executed _ _ | .crashed _ | .finished => l.leaves.reverse) ∧
    (∀ e : ThreadEvent, l.receivers e.opens = match e with
      | .started => l.leaves
      | .executed _ _ | .crashed _ | .finished => l.leaves.reverse) ∧
    ∀ opens, (l.receivers opens).Perm l.leaves ∧
      l.flat.leaves = l.leaves ∧ l.flat.receivers opens = l.receivers opens ∧
      ∀ (σ : Type) (take : ι → σ → σ) (s : σ),
        l.tell take opens s = (l.receivers opens).foldl (fun s i => take i s) s ∧
        l.flat.tell take opens s = l.tell take opens s := by
  refine ⟨fun e => ?_, fun e => ?_, fun opens => ⟨?_, leaves_flat l, ?_, fun σ take s => ?_⟩⟩
  · rw [receivers_eq]
    cases e <;> rfl
  · rw [receivers_eq]
    cases e <;> rfl
  · rw [receivers_eq]
    exact inOrder_perm opens l.leaves
  · rw [receivers_eq, receivers_eq, leaves_flat]
  · exact ⟨tell_eq_foldl take opens l s, tell_flat take opens l s⟩

/-- A composite between two leaves closes the scopes of its leaves in between. -/
example : receivers TaskEvent.finished.opens
    (.composite [.leaf "a", .composite [.leaf "b", .leaf "c"], .leaf "d"]) = ["d", "c", "b", "a"] :=
  rfl

end DurableQueue.Listener
