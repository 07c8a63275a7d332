import StageGate.Time.Instant
import StageGate.Value

/-!
This module contains the tables of the store with their columns: what kind of values a column keeps,
whether it may be empty, and what a new row has in it if nothing is given.
-/

namespace StageGate

inductive Table where
  | lead
  | pipeline
  | stage
  | criterion
  | entry
  | flags
  | audit
  deriving DecidableEq

inductive ColumnKind where
  | text
  | number
  | reference (table : Table)
  | flag
  | document
  | time
  | clock
  deriving DecidableEq

inductive Initial where
  | value (v : Value)
  | now

structure Attribute where
  name : String
  kind : ColumnKind
  isRequired : Bool
  initial : Initial

namespace Attribute

def optional (name : String) (kind : ColumnKind) : Attribute :=
  ⟨name, kind, false, .value .null⟩

def required (name : String) (kind : ColumnKind) : Attribute :=
  ⟨name, kind, true, .value .null⟩

def flag (name : String) (initial : Bool) : Attribute :=
  ⟨name, .flag, true, .value (.bool initial)⟩

def stamp (name : String) (isRequired : Bool) : Attribute :=
  ⟨name, .time, isRequired, .now⟩

def stamps : List Attribute :=
  [stamp "created_at" false, stamp "updated_at" false]

def description : Attribute :=
  ⟨"description", .text, false, .value (.text "")⟩

def keepsNull (a : Attribute) : Bool :=
  a.kind = .document

end Attribute

namespace Table

def all : List Table := [.lead, .pipeline, .stage, .criterion, .entry, .flags, .audit]

def word : Table → String
  | .lead => "lead"
  | .pipeline => "pipeline"
  | .stage => "stage"
  | .criterion => "criterion"
  | .entry => "entry"
  | .flags => "state"
  | .audit => "audit"

def name : Table → String
  | .lead => "leads"
  | .pipeline => "pipelines"
  | .stage => "pipeline_stages"
  | .criterion => "stage_criteria"
  | .entry => "pipeline_entries"
  | .flags => "criterion_states"
  | .audit => "audit_logs"

def ofWord? (s : String) : Option Table :=
  all.find? (·.word = s)

open Attribute

def columns : Table → List Attribute
  | .lead =>
    [required "name" .text, optional "email" .text, optional "phone" .text, optional "company" .text,
      optional "source" .text, optional "lead_score" .number,
      ⟨"custom_fields", .document, false, .value (.object [])⟩] ++ stamps
  | .pipeline =>
    [required "name" .text, description, flag "is_active" true, flag "is_primary" false,
      flag "allow_stage_jumps" false, flag "allow_regression" false] ++ stamps
  | .stage =>
    [required "pipeline_id" (.reference .pipeline), required "name" .text, required "order" .number,
      ⟨"sla_deadline_days", .number, true, .value (.int 0)⟩, optional "entry_criteria" .text,
      optional "exit_criteria" .text, flag "is_terminal" false, optional "wip_limit" .number] ++ stamps
  | .criterion =>
    [required "stage_id" (.reference .stage), required "name" .text, description,
      required "kind" .text, flag "mandatory" true, optional "rule" .document,
      ⟨"sort_order", .number, true, .value (.int 0)⟩, flag "is_active" true] ++ stamps
  | .entry =>
    [required "lead_id" (.reference .lead), required "pipeline_id" (.reference .pipeline),
      required "stage_id" (.reference .stage), ⟨"status", .text, true, .value (.text "active")⟩,
      stamp "enrolled_at" true, stamp "entered_stage_at" true, optional "closed_at" .time,
      optional "archive_reason" .text, optional "stage_note" .text, optional "health_cache" .text,
      optional "transferred_from_id" (.reference .entry)]
  | .flags =>
    [required "lead_id" (.reference .lead), required "criterion_id" (.reference .criterion),
      flag "done" false, flag "approved" false, optional "validated_by" .text,
      optional "validated_at" .time, optional "notes" .text]
  | .audit =>
    [required "entity_type" .text, required "entity_id" .text, optional "lead_id" .number,
      optional "pipeline_id" .number, required "action" .text,
      ⟨"actor", .text, true, .value (.text "system")⟩,
      ⟨"diff_json", .text, false, .value (.text "\x7b\x7d")⟩, ⟨"timestamp", .clock, true, .now⟩]

def key? : Table → Option (List String)
  | .stage => some ["pipeline_id", "order"]
  -- Of the active entries only.
  | .entry => some ["lead_id", "pipeline_id"]
  | .flags => some ["lead_id", "criterion_id"]
  | _ => none

def touched? : Table → Option String
  | .lead | .pipeline | .stage | .criterion => some "updated_at"
  | _ => none

end Table

end StageGate
