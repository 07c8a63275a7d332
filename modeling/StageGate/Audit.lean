import StageGate.Entry
import StageGate.Json.Reader
import StageGate.Value.Normal

/-!
This module contains the audit trail: one row for every change, which says what was changed, by whom and
when. Rows are only ever added.
-/

namespace StageGate

inductive Subject where
  | entry
  | flags
  | pipeline
  | stage
  | criterion
  | other (name : String)
  deriving DecidableEq

namespace Subject

def audited : List Subject := [.entry, .flags, .pipeline, .stage, .criterion]

def name : Subject → String
  | .entry => "pipeline_entry"
  | .flags => "criterion_state"
  | .pipeline => "pipeline"
  | .stage => "stage"
  | .criterion => "criterion"
  | .other name => name

def ofName? (s : String) : Option Subject :=
  audited.find? (·.name = s)

end Subject

inductive Action where
  | enroll
  | advance
  | regress
  | complete
  | archive
  | transfer
  | checklist
  | approval
  | create
  | update
  | other (name : String)
  deriving DecidableEq

namespace Action

def audited : List Action :=
  [.enroll, .advance, .regress, .complete, .archive, .transfer, .checklist, .approval, .create,
    .update]

def name : Action → String
  | .enroll => "pipeline_entry.enroll"
  | .advance => "pipeline_entry.advance"
  | .regress => "pipeline_entry.regress"
  | .complete => "pipeline_entry.complete"
  | .archive => "pipeline_entry.archive"
  | .transfer => "pipeline_entry.transfer"
  | .checklist => "criterion_state.checklist"
  | .approval => "criterion_state.approval"
  | .create => "create"
  | .update => "update"
  | .other name => name

def ofName? (s : String) : Option Action :=
  audited.find? (·.name = s)

end Action

structure TransferEnd where
  entry : Int
  -- The value that the pipeline was named by, which need not be its id.
  pipeline : Value
  stage : StageRef
  deriving DecidableEq

inductive Change where
  | enrolled (stage : StageRef) (bulk : Bool)
  | moved (old new : StageRef) (status : Status) (sla : Health) (warnings : List Value)
  | archived (stage : StageRef) (reason : Value)
  | transferred (source destination : TransferEnd) (reason : Value)
  | document (v : Value)
  | written (text : Option String)
  deriving DecidableEq

namespace Change

def pair (old new : Value) : Value :=
  .object [("old", old), ("new", new)]

def statusPair (old : Option Status) (new : Status) : String × Value :=
  ("status", pair (.ofOption (.text ·.name) old) (.text new.name))

def endValue (e : TransferEnd) (old : Option Status) (new : Status) : Value :=
  .object [("entry_id", .int e.entry), ("pipeline_id", e.pipeline), ("stage", e.stage.toValue),
    statusPair old new]

/-- The document that a text holds, if it is not nested deeper than is read. -/
def read (levels : Nat) (text : String) : Except Fault Value :=
  match Json.readWithin levels (if text = "" then "\x7b\x7d" else text) with
  | .ok v => .ok v
  -- A text that holds no document counts as one without members.
  | .error .malformed => .ok (.object [])
  | .error .integerTooLong => .error (.broken .notAnInteger)
  | .error (.tooDeep isObject) => .error (.broken (.tooDeep isObject))

def toValue : Change → Except Fault Value
  | .enrolled stage bulk =>
    .ok (.object ([statusPair none .active, ("stage", pair .null stage.toValue)] ++
      if bulk then [("bulk", .bool true)] else []))
  | .moved old new status sla warnings =>
    .ok (.object [("stage", pair old.toValue new.toValue), statusPair (some .active) status,
      ("sla_at_exit", sla.toValue), ("warnings", .list warnings)])
  | .archived stage reason =>
    .ok (.object [statusPair (some .active) .archived, ("stage", stage.toValue),
      ("reason", reason.normal)])
  | .transferred source destination reason =>
    .ok (.object [("reason", reason.normal), ("source", endValue source (some .active) .archived),
      ("destination", endValue destination none .active)])
  | .document v => .ok v
  -- No text is nested deeper than it is long.
  | .written text => read ((text.getD "").length + 1) (text.getD "")

end Change

structure AuditRow where
  id : Int
  subject : Subject
  subjectId : String
  lead : Value
  pipeline : Value
  action : Action
  actor : String
  change : Change
  writtenAt : Instant
  deriving DecidableEq

def AuditRow.toValue (r : AuditRow) : Except Fault Value := do
  return .object [("id", .int r.id), ("entity_type", .text r.subject.name),
    ("entity_id", .text r.subjectId), ("lead_id", r.lead), ("pipeline_id", r.pipeline),
    ("action", .text r.action.name), ("actor", .text r.actor), ("diff", ← r.change.toValue),
    ("timestamp", .text r.writtenAt.text)]

end StageGate
