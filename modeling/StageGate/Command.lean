import StageGate.Administration
import StageGate.Advancement
import StageGate.Closing

/-!
This module contains the commands: every operation with its arguments, and its answer as a document. A
run is a sequence of commands, each at its own time.
-/

namespace StageGate

/--
Who calls an operation on entries, when by his clock, and how long the call may wait; a time and a wait that are left
open are up to the surroundings.
-/
structure Caller where
  actor : Value
  now : Option Instant
  wait : Wait

inductive Shown where
  | leads
  | pipelines
  | entries
  | states
  | audit
  deriving DecidableEq

namespace Shown

def all : List Shown := [.leads, .pipelines, .entries, .states, .audit]

def name : Shown → String
  | .leads => "leads"
  | .pipelines => "pipelines"
  | .entries => "entries"
  | .states => "states"
  | .audit => "audit"

def ofName? (s : String) : Option Shown :=
  all.find? (·.name = s)

def entryValue (s : Store) (e : Entry) : Value :=
  .object (e.core ((s.stage? e.stage).map (·.name)) ++ [("health_cache", .ofText? e.healthCache)])

def rows (s : Store) : Shown → Except Fault (List Value)
  | .leads => .ok (s.leads.map Lead.toValue)
  | .pipelines => .ok (s.pipelines.map s.pipelineValue)
  | .entries => .ok (s.entries.map (entryValue s))
  | .states => .ok (s.flags.map FlagRow.toValue)
  | .audit => s.audit.mapM AuditRow.toValue

end Shown

inductive Command where
  | createLead (values : Fields)
  | createPipeline (actor data : Value)
  | addStage (actor pipeline data : Value)
  | addCriterion (actor stage data : Value)
  | updateCriterion (actor criterion data : Value) (shared : Bool)
  | validatePipeline (pipeline : Value)
  | loadCriteria (stage : Value)
  | setFlag (actor : Value) (flag : Flagging.Flag) (lead criterion : Value) (value : Bool) (notes : Value)
  | statesFor (lead criteria : Value)
  | enroll (caller : Caller) (lead pipeline note : Value)
  | enrollMany (caller : Caller) (leads pipeline : Value) (skipExisting : Bool) (note : Value)
  | advance (caller : Caller) (entry stage : Value) (knowledge : Advancement.Knowledge) (note : Value)
  | preview (caller : Caller) (entry : Value) (knowledge : Advancement.Knowledge)
  | archive (caller : Caller) (entry reason : Value)
  | transfer (caller : Caller) (entry pipeline reason note : Value)
  | getEntry (caller : Caller) (entry : Value)
  | listActive (caller : Caller) (pipeline : Value)
  | history (entry : Value)
  | healthSummary (caller : Caller) (pipeline : Value)
  | writeAudit (row : Fields)
  | addRow (table : Table) (values : Fields)
  | changeRow (table : Table) (id : Value) (values : Fields)
  | dump (tables : List Shown)
  | hold (owner : Owner) (key : LockKey) (waiter : Waiter) (wait : Wait)
  | holdMany (owner : Owner) (keys : List LockKey) (wait : Wait)
  | release (owner : Owner)

namespace Command

open Operation

def flagTableValue (table : FlagTable) : Value :=
  .object (table.map fun (id, flags) => (toString id, flags.toValue))

def leadValue (l : Lead) : Except Fault Value := do
  return .object [("id", .int l.id), ("snapshot", .object (← l.shownSnapshot))]

def idValue (id : Int) : Value :=
  .object [("id", .int id)]

def activeViews (c : ZonedCall) (pipeline : Value) (s : Store) : Except Fault (List EntryView) := do
  match ← Store.rowId? pipeline with
  | some id => (s.activeEntries id).mapM (s.view c.window c.now)
  | none => return []

def taking (take : Registry → Except Fault Unit × Registry) : Operation Value := fun s =>
  let (result, locks) := take s.locks
  (result.map fun _ => .text "held", { s with locks })

def releasing (owner : Owner) : Operation Value := do
  match (← get).locks.release? owner with
  | some locks =>
    modify fun s => { s with locks }
    return .text "released"
  | none => return .text "nothing held"

def run.call (env : Environment) (caller : Caller) : Call :=
  env.call caller.actor caller.now caller.wait

/-- Runs a command. The time that a caller brings along is what a clock shows in some zone. -/
def runIn (zone : Option Int) (env : Environment) : Command → Operation Value
  | .createLead values => commit do
    let l ← Direct.addLead env.now values
    Transaction.reading fun _ => leadValue l
  | .createPipeline actor data => do
    let p ← Administration.createPipeline ⟨actor, env.now⟩ data
    return (← get).store.pipelineValue p
  | .addStage actor pipeline data => do
    let stage ← Administration.addStage ⟨actor, env.now⟩ pipeline data
    return (← get).store.stageValue stage
  | .addCriterion actor stage data => do
    return (← Administration.addCriterion ⟨actor, env.now⟩ stage data).toValue
  | .updateCriterion actor criterion data shared => do
    return (← Administration.updateCriterion ⟨actor, env.now⟩ criterion data shared).toValue
  | .validatePipeline pipeline => do
    Administration.validatePipeline pipeline
    return .object [("valid", .bool true)]
  | .loadCriteria stage => do
    return .list ((← Administration.checksOf stage).map Check.toValue)
  | .setFlag actor flag lead criterion value notes => do
    return (← Administration.setFlag ⟨actor, env.now⟩ lead criterion flag value notes).toValue
  | .statesFor lead criteria => do
    return flagTableValue (← reading fun s => do s.statesFor lead (← criteria.elements))
  | .enroll caller lead pipeline note => do
    return (← Enrollment.enroll (call caller) lead pipeline note).toValue
  | .enrollMany caller leads pipeline skipExisting note => do
    return (← Enrollment.enrollMany (call caller) leads pipeline skipExisting note).toValue
  | .advance caller entry stage knowledge note => do
    return (← Advancement.advance (call caller) entry stage knowledge note).toValue
  | .preview caller entry knowledge => do
    return (← Advancement.preview (call caller) entry knowledge).toValue
  | .archive caller entry reason => do
    return (← Closing.archive (call caller) entry reason).toValue
  | .transfer caller entry pipeline reason note => do
    return (← Closing.transfer (call caller) entry pipeline reason note).toValue
  | .getEntry caller entry => do
    let c := call caller
    let view ← reading fun s => do s.view c.window c.now (← s.entry entry)
    return view.toValue
  | .listActive caller pipeline => do
    let views ← reading (activeViews (call caller) pipeline)
    return .list (views.map EntryView.toValue)
  | .history entry => do
    let rows ← reading fun s => do (s.history (← s.entry entry)).mapM AuditRow.toValue
    return .list rows
  | .healthSummary caller pipeline => do
    let c := call caller
    return (← Administration.healthSummary c.window pipeline c.now).toValue
  | .writeAudit row => do
    let r ← Administration.writeAudit env.now row
    reading fun _ => r.toValue
  | .addRow table values => do
    return idValue (← commit (Direct.add env.now table values))
  | .changeRow table id values => do
    return idValue (← commit (Direct.change env.now table id values))
  | .dump tables => do
    let shown ← reading fun s => tables.mapM fun t => return (t.name, .list (← t.rows s))
    return .object shown
  | .hold owner key waiter wait => taking (·.tryHold owner key waiter wait)
  | .holdMany owner keys wait => taking (·.tryHoldMany owner keys wait)
  | .release owner => releasing owner
where
  call (caller : Caller) : ZonedCall := (run.call env caller).inZone zone

def run (env : Environment) : Command → Operation Value :=
  runIn (some 0) env

end Command

end StageGate
