import DurableQueue.Listener.Event

/-!
# Composite listeners

Listeners can be nested like scopes: an event that opens a scope reaches them from the first to
the last, one that closes it from the last to the first.

* `Listener` is a tree of listeners, and `Listener.leaves` lists its leaves from left to right;
* `Listener.receivers` lists the leaves that an event reaches, in the order in which it does.
-/

namespace DurableQueue

/-- A listener, or several of them as one. -/
inductive Listener (ι : Type)
  | leaf (i : ι)
  | composite (children : List (Listener ι))

namespace Listener

variable {ι : Type}

instance : Inhabited (Listener ι) := ⟨.composite []⟩

mutual

/-- The leaves from left to right. -/
def leaves : Listener ι → List ι
  | .leaf i => [i]
  | .composite children => leavesOf children

/-- The leaves of several listeners. -/
def leavesOf : List (Listener ι) → List ι
  | [] => []
  | l :: ls => leaves l ++ leavesOf ls

end

mutual

/-- The leaves that an event reaches: in order if it opens a scope, else every composite passes
it on to its last child first. -/
def receivers (opens : Bool) : Listener ι → List ι
  | .leaf i => [i]
  | .composite children => receiversOf opens children

/-- The leaves of several listeners that an event reaches. -/
def receiversOf (opens : Bool) : List (Listener ι) → List ι
  | [] => []
  | l :: ls =>
    if opens then receivers opens l ++ receiversOf opens ls
    else receiversOf opens ls ++ receivers opens l

end

end Listener

end DurableQueue
