import DurableQueue.Settings.Cell

/-!
# Observers that refuse on demand

* `PlannedObserver` says which of its calls an observer refuses, and how;
* `PlannedObserver.tell` answers a call and records it; calls that tell a change back count too.
-/

namespace DurableQueue.Simulation

/-- Which calls an observer refuses, counted from one. -/
inductive RefusalPlan
  | always
  | calls (numbers : List Nat)
  deriving DecidableEq, Repr

/-- Whether a call is refused. -/
def RefusalPlan.refuses : RefusalPlan → Nat → Bool
  | .always, _ => true
  | .calls numbers, n => numbers.contains n

/-- An observer with a plan; refused settings are called invalid or rejected. -/
structure PlannedObserver where
  number : Nat
  plan : RefusalPlan
  isInvalid : Bool
  reason : String
  deriving DecidableEq, Repr

/-- A call of an observer with an old and a new value. -/
structure ObserverCall (α : Type) where
  observer : Nat
  old : α
  new : α
  deriving DecidableEq, Repr

namespace PlannedObserver

/-- The error with which an observer refuses settings. -/
def refusal (o : PlannedObserver) (setting : String) : SettingError :=
  if o.isInvalid then .invalid setting o.reason else .rejected setting o.reason

/-- Answer a call and record it; the calls of all observers are kept latest first. -/
def tell {α : Type} (setting : String) : Cell.Tell α PlannedObserver (List (ObserverCall α)) :=
  fun o old new calls =>
    let nth := calls.countP (fun c => c.observer == o.number) + 1
    (if o.plan.refuses nth then .error (o.refusal setting) else .ok (), ⟨o.number, old, new⟩ :: calls)

end PlannedObserver

end DurableQueue.Simulation
