import DurableQueue.Listener.Event
import DurableQueue.Store.Transaction

/-!
# Stores that fail on demand

* `Fault` says which call of a store is to fail, by its kind and its number;
* `FaultyStore.answer` answers a call; one that is to fail never reaches the store;
* `StoreCall.line` describes a call and its answer in one line.
-/

namespace DurableQueue

namespace StoreCall

/-- A kind of call that may fail. -/
inductive Kind
  | begin
  | pick
  | enqueue
  | delete
  | reenqueue
  | commit
  deriving DecidableEq, Repr

/-- All kinds of calls that may fail. -/
def Kind.all : List Kind := [.begin, .pick, .enqueue, .delete, .reenqueue, .commit]

/-- The name of a kind of call. -/
def Kind.name : Kind → String
  | .begin => "begin"
  | .pick => "pick"
  | .enqueue => "enqueue"
  | .delete => "delete"
  | .reenqueue => "reenqueue"
  | .commit => "commit"

/-- The kind of call with a name. -/
def Kind.ofName? (name : String) : Option Kind := Kind.all.find? fun k => k.name = name

/-- The kind of a call; giving a transaction up cannot fail. -/
def kind? : StoreCall → Option Kind
  | .begin => some .begin
  | .pick _ => some .pick
  | .enqueue _ => some .enqueue
  | .delete _ => some .delete
  | .reenqueue _ _ => some .reenqueue
  | .commit => some .commit
  | .release => none

/-- How a line goes on after a call that has succeeded or failed. -/
def outcomeText {α : Type} (shown : α → String) : Except StoreError α → String
  | .ok a => shown a
  | .error e => " -> error " ++ e.message

/-- An answer of yes or no as it is shown in a line. -/
def flagText (b : Bool) : String := if b then " -> true" else " -> false"

/-- A call and its answer in one line. -/
def line : (c : StoreCall) → c.Answer → String
  | .begin, r => "tx begin" ++ outcomeText (fun _ => "") r
  | .pick _, r => "tx pick" ++ outcomeText (fun found : Option TaskRecord =>
      match found with
      | some record => " -> " ++ decimal record.id
      | none => " -> none") r
  | .enqueue _, r => "tx enqueue" ++ outcomeText (fun id => " -> " ++ decimal id) r
  | .delete id, r => "tx delete " ++ decimal id ++ outcomeText flagText r
  | .reenqueue id delay, r =>
    "tx reenqueue " ++ decimal id ++ " " ++ delay.text ++ outcomeText flagText r
  | .commit, r => "tx commit" ++ outcomeText (fun _ => "") r
  | .release, _ => "tx drop"

end StoreCall

namespace Simulation

/-- A call that is to fail: the kind, the number of the call of that kind, and the message. -/
structure Fault where
  kind : StoreCall.Kind
  nth : Nat
  message : String
  deriving DecidableEq, Repr

/-- A store with the faults planned for it and the kinds of the calls that were made. The calls may
all be made in one transaction; otherwise each program has its own. -/
structure FaultyStore where
  store : Store
  faults : List Fault := []
  made : List StoreCall.Kind := []
  transaction : Option Transaction := none

namespace FaultyStore

/-- The fault planned for the next call of a kind. -/
def fault? (s : FaultyStore) (kind : StoreCall.Kind) : Option Fault :=
  s.faults.find? fun f => f.kind = kind && f.nth = s.made.count kind + 1

/-- Answer a call that reaches the store. -/
def pass (s : FaultyStore) (now : Instant) (l : Location) (c : StoreCall) :
    c.Answer × FaultyStore :=
  match s.transaction with
  | none =>
    let (answer, store) := c.answer now l s.store
    (answer, { s with store })
  | some t =>
    let (answer, t, store) := c.answerIn now l t s.store
    (answer, { s with store, transaction := some t })

/-- Answer a call, or let it fail if that is planned. -/
def answer (s : FaultyStore) (now : Instant) (l : Location) (c : StoreCall) :
    c.Answer × FaultyStore :=
  match c.kind? with
  | none => s.pass now l c
  | some kind =>
    let counted := { s with made := kind :: s.made }
    match s.fault? kind with
    | some f => (c.failure (.database f.message), counted)
    | none => counted.pass now l c

end FaultyStore

end Simulation

end DurableQueue
