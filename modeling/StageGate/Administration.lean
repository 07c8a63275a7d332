import StageGate.Flagging
import StageGate.HealthSummary
import StageGate.Store.Direct

/-!
This module contains the operations that do not move entries: on the configuration, on leads and flags,
on the health of a pipeline, and on the audit trail.
-/

namespace StageGate.Administration

open Operation StageGate.Configuration

def createLead (now : Instant) (values : Fields) : Operation Lead :=
  commit (Direct.addLead now values)

def createPipeline (a : Author) (data : Value) : Operation Pipeline :=
  settle (draftPipeline a data)

def addStage (a : Author) (pipeline data : Value) : Operation Stage := do
  let p ← reading (·.pipeline pipeline)
  settle (draftStage a p data)

def addCriterion (a : Author) (stage data : Value) : Operation Criterion := do
  let target ← reading (·.stage stage)
  let c ← settle (draftCriterion a target data)
  forget target.id
  return c

def updateCriterion (a : Author) (criterion data : Value) (shared : Bool) : Operation Criterion := do
  let c ← reading (·.criterion criterion)
  let updated ← settle (draftUpdate a c data shared)
  forget c.stage
  return updated

def validatePipeline (pipeline : Value) : Operation Unit :=
  reading fun s => do s.validate (← s.pipeline pipeline)

def checksOf (stage : Value) : Operation (List Check) := do
  let target ← reading (·.stage stage)
  loadChecks target.id

def setFlag (a : Author) (lead criterion : Value) (flag : Flagging.Flag) (value : Bool) (notes : Value) :
    Operation FlagRow :=
  settle (Flagging.draftFlag a lead criterion flag value notes)

def healthSummary (window pipeline : Value) (now : Stamp) : Operation HealthSummary := do
  let h ← settle (HealthSummary.draft window pipeline now)
  -- What the entries remember is kept before the rows of the stages are sorted.
  reading fun _ => h.sorted

def auditedName {α : Type} (kind : String) (ofName? : String → Option α) (name : Value) :
    Except Fault α :=
  if !name.isKey then .error (.broken .wrongKind)
  else
    match name.asText?.bind ofName? with
    | some a => .ok a
    | none => .error (.broken (.unknownSubject ("Unknown audit " ++ kind ++ ": " ++ name.toText)))

def auditMembers : List String :=
  ["entity_type", "entity_id", "action", "actor", "lead_id", "pipeline_id", "diff", "timestamp"]

def requiredMembers : List String :=
  ["entity_type", "entity_id", "action"]

def auditRow (now : Instant) (row : Fields) : Transaction AuditRow := do
  let wellFormed :=
    row.all (fun f => auditMembers.contains f.1) && requiredMembers.all (Fields.has row)
  Transaction.demand wellFormed (.broken .wrongKind)
  let member (key : String) : Value := Fields.getD row key .null
  let subject ← auditedName "entity type" Subject.ofName? (member "entity_type")
  let action ← auditedName "action" Action.ofName? (member "action")
  Transaction.demand (!(member "timestamp").isTrue) (.broken .unprepared)
  let subjectId := (member "entity_id").toText
  Column.checkText subjectId
  let r : AuditRow := {
    id := Store.nextId ((← get).audit.map (·.id))
    subject
    subjectId
    lead := ← Column.number (member "lead_id")
    pipeline := ← Column.number (member "pipeline_id")
    action
    actor := ← Transaction.signature (member "actor")
    change := .document ((member "diff").orElse (.object [])).normal
    writtenAt := now }
  Transaction.addAudit r
  return r

def writeAudit (now : Instant) (row : Fields) : Operation AuditRow :=
  commit (auditRow now row)

end StageGate.Administration
