import StageGate.Json.Writer
import StageGate.Store
import StageGate.Store.Table

/-!
This module contains the rows of all tables as columns with their names, and the rows of each table that
columns make up. Times stand as texts, and a column that is missing is empty.
-/

namespace StageGate.Row

/-! ## Columns -/

def text? (row : Fields) (key : String) : Option String :=
  (row.getD key .null).asText?

def text (row : Fields) (key : String) : String :=
  (text? row key).getD ""

def int? (row : Fields) (key : String) : Option Int :=
  (row.getD key .null).asInt?

def int (row : Fields) (key : String) : Int :=
  (int? row key).getD 0

def flag (row : Fields) (key : String) : Bool :=
  (row.getD key .null).isTrue

def time? (row : Fields) (key : String) : Option Instant :=
  ((text? row key).bind Stamp.ofText?).map (·.reading)

def time (row : Fields) (key : String) : Instant :=
  (time? row key).getD default

/-! ## Rows from columns -/

def lead (id : Int) (row : Fields) : Lead := {
  id
  name := text row "name"
  email := text? row "email"
  phone := text? row "phone"
  company := text? row "company"
  source := text? row "source"
  score := row.getD "lead_score" .null
  custom := row.getD "custom_fields" .null
  createdAt := time? row "created_at"
  updatedAt := time? row "updated_at" }

def pipeline (id : Int) (row : Fields) : Pipeline := {
  id
  name := text row "name"
  description := text? row "description"
  isActive := flag row "is_active"
  isPrimary := flag row "is_primary"
  allowJumps := flag row "allow_stage_jumps"
  allowRegression := flag row "allow_regression"
  createdAt := time? row "created_at"
  updatedAt := time? row "updated_at" }

def stage (id : Int) (row : Fields) : Stage := {
  id
  pipeline := int row "pipeline_id"
  name := text row "name"
  order := row.getD "order" .null
  deadline := row.getD "sla_deadline_days" .null
  entryCriteria := text? row "entry_criteria"
  exitCriteria := text? row "exit_criteria"
  isTerminal := flag row "is_terminal"
  limit := row.getD "wip_limit" .null }

def criterion (id : Int) (row : Fields) : Criterion := {
  id
  stage := int row "stage_id"
  name := text row "name"
  description := text? row "description"
  kind := text row "kind"
  mandatory := flag row "mandatory"
  rule := row.getD "rule" .null
  sortOrder := row.getD "sort_order" .null
  isActive := flag row "is_active"
  createdAt := time? row "created_at"
  updatedAt := time? row "updated_at" }

def entry (id : Int) (row : Fields) : Entry := {
  id
  lead := int row "lead_id"
  pipeline := int row "pipeline_id"
  stage := int row "stage_id"
  status := .ofName (text row "status")
  enrolledAt := time row "enrolled_at"
  enteredAt := time row "entered_stage_at"
  closedAt := time? row "closed_at"
  archiveReason := text? row "archive_reason"
  note := text? row "stage_note"
  healthCache := text? row "health_cache"
  transferredFrom := int? row "transferred_from_id" }

def flags (id : Int) (row : Fields) : FlagRow := {
  id
  lead := int row "lead_id"
  criterion := int row "criterion_id"
  done := flag row "done"
  approved := flag row "approved"
  validatedBy := text? row "validated_by"
  validatedAt := time? row "validated_at"
  notes := text? row "notes" }

def audit (id : Int) (row : Fields) : AuditRow := {
  id
  subject := (Subject.ofName? (text row "entity_type")).getD (.other (text row "entity_type"))
  subjectId := text row "entity_id"
  lead := row.getD "lead_id" .null
  pipeline := row.getD "pipeline_id" .null
  action := (Action.ofName? (text row "action")).getD (.other (text row "action"))
  actor := text row "actor"
  change := .written (text? row "diff_json")
  writtenAt := time row "timestamp" }

/-! ## Columns of rows -/

def ofLead (l : Lead) : Fields :=
  l.core ++ [("custom_fields", l.custom), ("created_at", .ofText? (l.createdAt.map Instant.text)),
    ("updated_at", .ofText? (l.updatedAt.map Instant.text))]

def ofStage (s : Stage) : Fields :=
  s.core s.isTerminal

def ofEntry (e : Entry) : Fields :=
  [("id", .int e.id), ("lead_id", .int e.lead), ("pipeline_id", .int e.pipeline),
    ("stage_id", .int e.stage), ("status", .text e.status.name),
    ("enrolled_at", .text e.enrolledAt.text), ("entered_stage_at", .text e.enteredAt.text),
    ("closed_at", .ofText? (e.closedAt.map Instant.text)),
    ("archive_reason", .ofText? e.archiveReason), ("stage_note", .ofText? e.note),
    ("health_cache", .ofText? e.healthCache), ("transferred_from_id", .ofInt? e.transferredFrom)]

def ofFlags (r : FlagRow) : Fields :=
  [("id", .int r.id), ("lead_id", .int r.lead), ("criterion_id", .int r.criterion),
    ("done", .bool r.done), ("approved", .bool r.approved), ("validated_by", .ofText? r.validatedBy),
    ("validated_at", .ofText? (r.validatedAt.map Instant.text)), ("notes", .ofText? r.notes)]

def changeText (c : Change) : Option String :=
  match c with
  | .written text => text
  | c => c.toValue.toOption.map (Json.write Json.spaced)

def ofAudit (r : AuditRow) : Fields :=
  [("id", .int r.id), ("entity_type", .text r.subject.name), ("entity_id", .text r.subjectId),
    ("lead_id", r.lead), ("pipeline_id", r.pipeline), ("action", .text r.action.name),
    ("actor", .text r.actor), ("diff_json", .ofText? (changeText r.change)),
    ("timestamp", .text r.writtenAt.text)]

def all (s : Store) : Table → List Fields
  | .lead => s.leads.map ofLead
  | .pipeline => s.pipelines.map Pipeline.core
  | .stage => s.stages.map ofStage
  | .criterion => s.criteria.map Criterion.core
  | .entry => s.entries.map ofEntry
  | .flags => s.flags.map ofFlags
  | .audit => s.audit.map ofAudit

def find? (s : Store) (table : Table) (id : Int) : Option Fields :=
  (all s table).find? fun row => int? row "id" = some id

/-! ## Writing -/

def insert {α : Type} (idOf : α → Int) (row : α) : List α → List α
  | [] => [row]
  | r :: rs => if idOf row < idOf r then row :: r :: rs else r :: insert idOf row rs

def put {α : Type} (idOf : α → Int) (old : Int) (row : α) (rows : List α) : List α :=
  insert idOf row (rows.filter (idOf · ≠ old))

def write (s : Store) (table : Table) (old id : Int) (row : Fields) : Store :=
  match table with
  | .lead => { s with leads := put (·.id) old (lead id row) s.leads }
  | .pipeline => { s with pipelines := put (·.id) old (pipeline id row) s.pipelines }
  | .stage => { s with stages := put (·.id) old (stage id row) s.stages }
  | .criterion => { s with criteria := put (·.id) old (criterion id row) s.criteria }
  | .entry => { s with entries := put (·.id) old (entry id row) s.entries }
  | .flags => { s with flags := put (·.id) old (flags id row) s.flags }
  | .audit => { s with audit := put (·.id) old (audit id row) s.audit }

end StageGate.Row
