import StageGate.Api.Handler
import StageGate.Command
import StageGate.Log.Line
import StageGate.Settings
import StageGate.Fault.Arguments
import StageGate.Proofs.SingleEntry
import StageGate.Proofs.Capacity
import StageGate.Proofs.Replay
import StageGate.Proofs.Lifecycle
import StageGate.Proofs.Cache
import StageGate.Proofs.Transfer
import StageGate.Proofs.Bulk
import StageGate.Proofs.Decision
import StageGate.Proofs.Canonical
import StageGate.Proofs.Writes
import StageGate.Proofs.Loadable
import StageGate.Proofs.Tables
import StageGate.Proofs.Rounding
import StageGate.Proofs.Counting
import StageGate.Proofs.Configured
import StageGate.Proofs.FlagRows
import StageGate.Proofs.Evaluation
import StageGate.Proofs.Flags
import StageGate.Proofs.Failures
import StageGate.Proofs.Requests
import StageGate.Proofs.Locks
import StageGate.Proofs.Registry
import StageGate.Proofs.Errands
import StageGate.Proofs.Deadlock
import StageGate.Proofs.Plans
import StageGate.Proofs.Commuting
import StageGate.Proofs.Paths
import StageGate.Proofs.Lineage
import StageGate.Proofs.Totality
import StageGate.Proofs.Deadlines
import StageGate.Proofs.Risks
import StageGate.Proofs.Breakdowns
import StageGate.Proofs.Documents
import StageGate.Proofs.LeadRows
import StageGate.Proofs.Handling
import StageGate.Proofs.Facts
import StageGate.Proofs.Served
import StageGate.Proofs.Intake
import StageGate.Proofs.Layout
import StageGate.Proofs.Welcome
import StageGate.Proofs.Endpoints
import StageGate.Proofs.Integers
import StageGate.Proofs.Reporting
import StageGate.Proofs.Verdicts
import StageGate.Proofs.Aging
import StageGate.Proofs.Preview
import StageGate.Proofs.Exactness
import StageGate.Proofs.Summary
import StageGate.Proofs.Dates
import StageGate.Proofs.History
import StageGate.Proofs.Timeouts
import StageGate.Proofs.HeldKeys
import StageGate.Proofs.AllOrNothing
import StageGate.Proofs.Comparisons
import StageGate.Proofs.Leaves
import StageGate.Proofs.Equality
import StageGate.Proofs.Snapshots
import StageGate.Proofs.Contiguity
