import DurableQueue.Config.WorkerOptions
import DurableQueue.Listener.Composite
import DurableQueue.Listener.Logging
import DurableQueue.Simulation.Bench
import DurableQueue.Simulation.Note
import DurableQueue.Simulation.Observer
import DurableQueue.Simulation.ScriptedDatabase
import DurableQueue.Simulation.StoreBench
import DurableQueue.Proofs.Store.Rows
import DurableQueue.Proofs.Store.Exclusive
import DurableQueue.Proofs.Program.Monitor
import DurableQueue.Proofs.Worker.Ledger
import DurableQueue.Proofs.Worker.Discipline
import DurableQueue.Proofs.Worker.Effect
import DurableQueue.Proofs.Service.Loops
import DurableQueue.Proofs.Works.Custody
import DurableQueue.Proofs.Works.System
import DurableQueue.Proofs.Works.Watch
import DurableQueue.Proofs.Works.Kept
import DurableQueue.Proofs.Worker.Report
import DurableQueue.Proofs.Settings.Updates
import DurableQueue.Proofs.Worker.Roster
import DurableQueue.Proofs.Worker.Turnover
import DurableQueue.Proofs.Worker.Gating
import DurableQueue.Proofs.Worker.Waits
import DurableQueue.Proofs.Worker.Pacing
import DurableQueue.Proofs.Service.Pools
import DurableQueue.Proofs.Service.Agreement
import DurableQueue.Proofs.Service.Calls
import DurableQueue.Proofs.Works.Agreement
import DurableQueue.Proofs.Service.Deadline
import DurableQueue.Proofs.Settings.Origin
import DurableQueue.Proofs.Service.Proposals
import DurableQueue.Proofs.Service.Reconfiguration
import DurableQueue.Proofs.Service.Reports
import DurableQueue.Proofs.Store.Statements
import DurableQueue.Proofs.Store.Sending
import DurableQueue.Proofs.Config.Section
import DurableQueue.Proofs.Config.Keys
import DurableQueue.Proofs.Config.Queues
import DurableQueue.Proofs.Config.Reenqueue
import DurableQueue.Proofs.Service.Reloading
import DurableQueue.Proofs.Store.History
import DurableQueue.Proofs.Store.Separation
import DurableQueue.Proofs.Store.Completion
import DurableQueue.Proofs.Works.Charge
import DurableQueue.Proofs.Works.Notes
import DurableQueue.Proofs.Works.Tickets
import DurableQueue.Proofs.Works.Tracking
import DurableQueue.Proofs.Works.Backoff
import DurableQueue.Proofs.Store.Picking
import DurableQueue.Proofs.Store.Visibility
import DurableQueue.Proofs.Works.Registration
import DurableQueue.Proofs.Time.Grammar
import DurableQueue.Proofs.Time.Reading
import DurableQueue.Proofs.Time.Calendar
import DurableQueue.Proofs.Time.Timestamps
import DurableQueue.Proofs.Json.Codecs
import DurableQueue.Proofs.Producer.Offering
import DurableQueue.Proofs.Producer.Delivery
import DurableQueue.Proofs.Retry.Delays
import DurableQueue.Proofs.Settings.FailureDelay
import DurableQueue.Proofs.Store.Expression
import DurableQueue.Proofs.Store.Insertion
import DurableQueue.Proofs.Store.Columns
import DurableQueue.Proofs.Config.Places
import DurableQueue.Proofs.Listener.Nesting
import DurableQueue.Proofs.Settings.Differences
import DurableQueue.Proofs.Time.LiteralLists
