import DurableQueue.Time.Delay

/-!
# Time limits

One budget of time for several operations that run one after the other. Each is offered what is
left of the budget, and none is started once nothing is left.
-/

namespace DurableQueue

/-- What is left of a budget of time. -/
structure TimeLimit where
  remaining : Delay
  deriving DecidableEq, Repr

namespace TimeLimit

/-- What the next operation is offered; nothing once the budget is used up. -/
def offer (l : TimeLimit) : Option Delay := if l.remaining.isZero then none else some l.remaining

/-- Take the time of an operation off the budget. -/
def spend (l : TimeLimit) (elapsed : Delay) : TimeLimit := ⟨l.remaining.sub elapsed⟩

/-- Start an operation that takes a given time, if any is left; gives what it was offered. -/
def execute (l : TimeLimit) (elapsed : Delay) : Option Delay × TimeLimit :=
  match l.offer with
  | none => (none, l)
  | some offered => (some offered, l.spend elapsed)

end TimeLimit

end DurableQueue
