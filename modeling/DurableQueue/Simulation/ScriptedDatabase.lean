import DurableQueue.Store.Sql.Session

/-!
# A scripted database

A database that gives one reply to every statement with values, and refuses the statements without
values that it is told to refuse. It records what was sent.
-/

namespace DurableQueue.Simulation

open Sql

/-- The reply of a database, the texts that it refuses, and the statements sent so far. -/
structure ScriptedDatabase where
  reply : Reply
  refused : List String := []
  sent : List Statement := []
  deriving DecidableEq, Repr

/-- Answer a statement and record it. -/
def ScriptedDatabase.answer : Database ScriptedDatabase := fun statement d =>
  let d := { d with sent := d.sent ++ [statement] }
  if statement.values = [] then
    (if statement.text ∈ d.refused then .failed "refused" else .done none 0, d)
  else (d.reply, d)

end DurableQueue.Simulation
