import StageGate.Pipeline
import StageGate.Sla

/-!
This module contains the entries: each is one stay of a lead in a pipeline. An entry is active until it is
archived or completed, and it stays closed from then on.
-/

namespace StageGate

inductive Status where
  | active
  | archived
  | completed
  | other (name : String)
  deriving DecidableEq

namespace Status

def name : Status → String
  | .active => "active"
  | .archived => "archived"
  | .completed => "completed"
  | .other name => name

def ofName (s : String) : Status :=
  if s = "active" then .active
  else if s = "archived" then .archived
  else if s = "completed" then .completed
  else .other s

def canBecome : Status → Status → Bool
  | .active, .archived | .active, .completed => true
  | _, _ => false

end Status

structure Entry where
  id : Int
  lead : Int
  pipeline : Int
  stage : Int
  status : Status
  enrolledAt : Instant
  enteredAt : Instant
  closedAt : Option Instant
  archiveReason : Option String
  note : Option String
  healthCache : Option String
  transferredFrom : Option Int
  deriving DecidableEq

namespace Entry

def isActive (e : Entry) : Bool :=
  e.status = .active

def core (e : Entry) (stageName : Option String) : Fields :=
  [("id", .int e.id), ("lead_id", .int e.lead), ("pipeline_id", .int e.pipeline),
    ("stage_id", .int e.stage), ("stage_name", .ofText? stageName), ("status", .text e.status.name),
    ("enrolled_at", .text e.enrolledAt.zonedText),
    ("entered_stage_at", .text e.enteredAt.zonedText),
    ("closed_at", .ofText? (e.closedAt.map Instant.zonedText)),
    ("archive_reason", .ofText? e.archiveReason), ("stage_note", .ofText? e.note),
    ("transferred_from_id", .ofInt? e.transferredFrom)]

def longestReason : Nat := 500

def cutReason (reason : String) : String :=
  String.ofList (reason.toList.take longestReason)

def archive (e : Entry) (reason : Option String) (now : Instant) : Entry :=
  { e with status := .archived, archiveReason := reason, closedAt := some now, healthCache := none }

def moveTo (e : Entry) (stage : Int) (now : Instant) : Entry :=
  { e with stage, enteredAt := now }

def remember (e : Entry) (b : Bucket) : Entry :=
  { e with healthCache := some b.name }

def complete (e : Entry) (now : Instant) : Entry :=
  { e with status := .completed, closedAt := some now, healthCache := none }

end Entry

structure EntryView where
  entry : Entry
  stageName : Option String
  health : Option Health
  asOf : Stamp
  deriving DecidableEq

namespace EntryView

def core (v : EntryView) : Fields :=
  v.entry.core v.stageName ++
    [("health", .ofOption Health.toValue v.health), ("as_of", .text v.asOf.text)]

def toValue (v : EntryView) : Value :=
  .object v.core

end EntryView

structure FlagRow where
  id : Int
  lead : Int
  criterion : Int
  done : Bool
  approved : Bool
  validatedBy : Option String
  validatedAt : Option Instant
  notes : Option String
  deriving DecidableEq

def FlagRow.toValue (r : FlagRow) : Value :=
  .object [("id", .int r.id), ("lead_id", .int r.lead), ("criterion_id", .int r.criterion),
    ("done", .bool r.done), ("approved", .bool r.approved), ("validated_by", .ofText? r.validatedBy),
    ("validated_at", .ofText? (r.validatedAt.map Instant.zonedText)), ("notes", .ofText? r.notes)]

end StageGate
