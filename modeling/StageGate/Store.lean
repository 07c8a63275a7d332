import StageGate.Lead
import StageGate.Audit
import StageGate.Criterion.Compile
import StageGate.Criterion.Verdict
import StageGate.Pipeline.Validity
import StageGate.Store.Column
import StageGate.Store.Order

/-!
This module contains the store: the rows of every table, in the order of their ids, and how rows are
found. The rows that belong to a row are found through their ids.
-/

namespace StageGate

structure Store where
  leads : List Lead
  pipelines : List Pipeline
  stages : List Stage
  criteria : List Criterion
  flags : List FlagRow
  entries : List Entry
  audit : List AuditRow
  deriving DecidableEq

namespace Store

def empty : Store :=
  ⟨[], [], [], [], [], [], []⟩

def nextId (ids : List Int) : Int :=
  ids.max?.getD 0 + 1

/-! ## Rows by their ids -/

/-- The id that a number column is asked for by a value; other values than integers are in no row. -/
def rowId? (v : Value) : Except Fault (Option Int) := do
  match ← Column.number v with
  | .int n => return some n
  | _ => return none

/-- The value that names a row; it may stand alone in a list, or be the member `id` of an object. -/
def identity (v : Value) : Except Fault Value :=
  match v with
  | .list [v] | .object [("id", v)] => usable v
  | .list _ | .object _ => .error (.broken .unidentified)
  | v => usable v
where
  usable (v : Value) : Except Fault Value :=
    if v.isKey then .ok v else .error (.broken .wrongKind)

def seek {α : Type} (row? : Int → Option α) (id : Value) : Except Fault (Option α) := do
  return (← rowId? (← identity id)).bind row?

def require {α : Type} (resource : String) (row? : Int → Option α) (id : Value) : Except Fault α := do
  match ← seek row? id with
  | some a => return a
  | none => throw (.refused (.notFound resource id))

def lead? (s : Store) (id : Int) : Option Lead :=
  s.leads.find? (·.id = id)

def pipeline? (s : Store) (id : Int) : Option Pipeline :=
  s.pipelines.find? (·.id = id)

def stage? (s : Store) (id : Int) : Option Stage :=
  s.stages.find? (·.id = id)

def criterion? (s : Store) (id : Int) : Option Criterion :=
  s.criteria.find? (·.id = id)

def entryRow? (s : Store) (id : Int) : Option Entry :=
  s.entries.find? (·.id = id)

def lead (s : Store) (id : Value) : Except Fault Lead :=
  require "Lead" s.lead? id

def pipeline (s : Store) (id : Value) : Except Fault Pipeline :=
  require "Pipeline" s.pipeline? id

def stage (s : Store) (id : Value) : Except Fault Stage :=
  require "PipelineStage" s.stage? id

def criterion (s : Store) (id : Value) : Except Fault Criterion :=
  require "StageCriterion" s.criterion? id

def entry (s : Store) (id : Value) : Except Fault Entry :=
  require "PipelineEntry" s.entryRow? id

def follow {α : Type} (row : Option α) : Except Fault α :=
  match row with
  | some a => .ok a
  | none => .error (.broken .notAnObject)

def stagesOf (s : Store) (pipeline : Int) : List Stage :=
  Listing.inOrder (fun a b => Column.atMost a.order b.order) (s.stages.filter (·.pipeline = pipeline))

def criteriaOf (s : Store) (stage : Int) : List Criterion :=
  Listing.inOrder
    (fun a b =>
      if a.sortOrder = b.sortOrder then a.id ≤ b.id else Column.atMost a.sortOrder b.sortOrder)
    (s.criteria.filter (·.stage = stage))

def sourcesOf (s : Store) (stage : Int) : List CheckSource :=
  ((s.criteriaOf stage).filter (·.isActive)).map Criterion.source

def isTerminal (s : Store) (stage : Stage) : Bool :=
  -- The last stage of a pipeline is terminal even if it is not marked.
  stage.isTerminal || (s.stagesOf stage.pipeline).getLast?.any (·.id = stage.id)

def validate (s : Store) (p : Pipeline) : Except Fault Unit :=
  Pipeline.validateShape (.int p.id) ((s.stagesOf p.id).map Stage.shape)

def activeEntryIn? (s : Store) (lead pipeline : Int) : Option Entry :=
  s.entries.find? fun e => e.lead = lead && e.pipeline = pipeline && e.isActive

def collision : String :=
  "UNIQUE constraint failed: pipeline_entries.lead_id, pipeline_entries.pipeline_id"

def orderCollision : String :=
  "UNIQUE constraint failed: pipeline_stages.pipeline_id, pipeline_stages.order"

def seats (s : Store) (stage : Stage) : Bool :=
  s.stages.all fun x => !(x.pipeline = stage.pipeline && x.order.same stage.order)

def admits (s : Store) (e : Entry) : Bool :=
  !e.isActive || s.entries.all fun x =>
    x.id = e.id || !(x.lead = e.lead && x.pipeline = e.pipeline && x.isActive)

def addEntry (s : Store) (e : Entry) : Store :=
  { s with entries := s.entries ++ [e] }

def putEntry (s : Store) (e : Entry) : Store :=
  { s with entries := s.entries.map fun x => if x.id = e.id then e else x }

def addAudit (s : Store) (r : AuditRow) : Store :=
  { s with audit := s.audit ++ [r] }

def occupancy (s : Store) (stage : Int) : Nat :=
  s.entries.countP fun e => e.stage = stage && e.isActive

def activeEntries (s : Store) (pipeline : Int) : List Entry :=
  Listing.inOrder
    (fun a b =>
      a.enteredAt.micros < b.enteredAt.micros ||
        (a.enteredAt.micros == b.enteredAt.micros && a.id ≤ b.id))
    (s.entries.filter fun e => e.pipeline = pipeline && e.isActive)

def healthOf (s : Store) (window : Value) (now : Instant) (e : Entry) : Except Fault Health := do
  let stage ← follow (s.stage? e.stage)
  Health.of e.enteredAt now stage.deadline window

def healthAt (s : Store) (window : Value) (now : Stamp) (e : Entry) : Except Fault Health := do
  s.healthOf window (← now.instant) e

@[simp]
theorem healthAt_universal (s : Store) (window : Value) (now : Instant) (e : Entry) :
    s.healthAt window now e = s.healthOf window now e :=
  rfl

def view (s : Store) (window : Value) (now : Stamp) (e : Entry) : Except Fault EntryView := do
  let health ← if e.isActive then (s.healthAt window now e).map some else pure none
  return ⟨e, (s.stage? e.stage).map (·.name), health, now⟩

/-- How many variables of one query can be bound, if the database is not built to take more. -/
def mostVariables : Nat := 32766

def checkVariables (count : Nat) : Except Fault Unit :=
  if count ≤ mostVariables then .ok () else .error (.broken .overloaded)

def flagsFor (s : Store) (lead : Int) (isWanted : Int → Bool) : FlagTable :=
  (s.flags.filter fun r => r.lead = lead && isWanted r.criterion).map fun r =>
    (r.criterion, ⟨r.done, r.approved⟩)

def statesFor (s : Store) (lead : Value) (criteria : List Value) : Except Fault FlagTable := do
  if criteria.isEmpty then return []
  checkVariables (criteria.length + 1)
  let lead ← rowId? lead
  let ids ← criteria.mapM rowId?
  return lead.elim [] fun lead => s.flagsFor lead fun id => ids.contains (some id)

def flagsOn (s : Store) (lead : Int) (checks : List Check) : Except Fault FlagTable := do
  checkVariables (checks.length + 1)
  return s.flagsFor lead fun id => checks.any (·.id = .int id)

def stageValue (s : Store) (stage : Stage) : Value :=
  .object (stage.core (s.isTerminal stage) ++
    [("criteria", .list ((s.criteriaOf stage.id).map Criterion.toValue))])

def pipelineValue (s : Store) (p : Pipeline) : Value :=
  .object (p.core ++ [("stages", .list ((s.stagesOf p.id).map s.stageValue))])

def history (s : Store) (e : Entry) : List AuditRow :=
  let own := s.audit.filter fun r => r.subject = .entry && r.subjectId = toString e.id
  -- The transfer that created the entry is filed under the one that it closed.
  let origin :=
    match e.transferredFrom with
    | none => []
    | some source =>
      if source = 0 then []
      else
        s.audit.filter fun r =>
          r.subject = .entry && r.subjectId = toString source && r.action = .transfer
  Listing.inOrder
    (fun a b =>
      a.writtenAt.micros < b.writtenAt.micros ||
        (a.writtenAt.micros == b.writtenAt.micros && a.id ≤ b.id))
    (own ++ origin)

end Store

end StageGate
