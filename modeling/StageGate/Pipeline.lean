import StageGate.Fault
import StageGate.Time.Instant

/-!
This module contains the configuration: pipelines, their stages, and the criteria that gate the stages. A
column of numbers may hold another value if a row was written directly.
-/

namespace StageGate

structure Pipeline where
  id : Int
  name : String
  description : Option String
  isActive : Bool
  isPrimary : Bool
  allowJumps : Bool
  allowRegression : Bool
  createdAt : Option Instant
  updatedAt : Option Instant
  deriving DecidableEq

structure Stage where
  id : Int
  pipeline : Int
  name : String
  order : Value
  deadline : Value
  entryCriteria : Option String
  exitCriteria : Option String
  isTerminal : Bool
  -- A false value is no limit.
  limit : Value
  deriving DecidableEq

structure Criterion where
  id : Int
  stage : Int
  name : String
  description : Option String
  kind : String
  mandatory : Bool
  rule : Value
  sortOrder : Value
  isActive : Bool
  createdAt : Option Instant
  updatedAt : Option Instant
  deriving DecidableEq

structure StageRef where
  id : Int
  name : String
  order : Value
  deriving DecidableEq

def StageRef.toValue (r : StageRef) : Value :=
  .object [("id", .int r.id), ("name", .text r.name), ("order", r.order)]

namespace Stage

def ref (s : Stage) : StageRef :=
  ⟨s.id, s.name, s.order⟩

def capacity? (s : Stage) : Option Value :=
  if s.limit.isTrue then some s.limit else none

end Stage

namespace Pipeline

def core (p : Pipeline) : Fields :=
  [("id", .int p.id), ("name", .text p.name), ("description", .ofText? p.description),
    ("is_active", .bool p.isActive), ("is_primary", .bool p.isPrimary),
    ("allow_stage_jumps", .bool p.allowJumps), ("allow_regression", .bool p.allowRegression),
    ("created_at", .ofText? (p.createdAt.map Instant.text)),
    ("updated_at", .ofText? (p.updatedAt.map Instant.text))]

end Pipeline

namespace Stage

def core (s : Stage) (isTerminal : Bool) : Fields :=
  [("id", .int s.id), ("pipeline_id", .int s.pipeline), ("name", .text s.name),
    ("order", s.order), ("sla_deadline_days", s.deadline),
    ("entry_criteria", .ofText? s.entryCriteria), ("exit_criteria", .ofText? s.exitCriteria),
    ("is_terminal", .bool isTerminal), ("wip_limit", s.limit)]

end Stage

namespace Criterion

def editable (c : Criterion) : Fields :=
  [("name", .text c.name), ("description", .ofText? c.description), ("kind", .text c.kind),
    ("mandatory", .bool c.mandatory), ("rule", c.rule), ("sort_order", c.sortOrder),
    ("is_active", .bool c.isActive)]

def core (c : Criterion) : Fields :=
  [("id", .int c.id), ("stage_id", .int c.stage)] ++ c.editable ++
    [("created_at", .ofText? (c.createdAt.map Instant.text)),
      ("updated_at", .ofText? (c.updatedAt.map Instant.text))]

def toValue (c : Criterion) : Value :=
  .object c.core

end Criterion

end StageGate
