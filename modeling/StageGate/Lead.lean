import StageGate.Time.Instant
import StageGate.Value.Members

/-!
This module contains the leads that move through pipelines, and the facts about a lead that rules are
judged on: its own columns together with its custom fields, which never hide a column.
-/

namespace StageGate

structure Lead where
  id : Int
  name : String
  email : Option String
  phone : Option String
  company : Option String
  source : Option String
  score : Value
  custom : Value
  createdAt : Option Instant
  updatedAt : Option Instant
  deriving DecidableEq

def Lead.coreNames : List String :=
  ["id", "name", "email", "phone", "company", "source", "lead_score"]

namespace Lead

def core (l : Lead) : Fields :=
  [("id", .int l.id), ("name", .text l.name), ("email", .ofText? l.email),
    ("phone", .ofText? l.phone), ("company", .ofText? l.company), ("source", .ofText? l.source),
    ("lead_score", l.score)]

def snapshotOf (name? : Value → Option String) (custom : Value) (core : Fields) : Except Fault Fields := do
  return Fields.merge (Members.toFields name? (← custom.asMembers)) core

def snapshot (l : Lead) : Except Fault Fields :=
  snapshotOf Value.asText? l.custom l.core

def shownSnapshot (l : Lead) : Except Fault Fields :=
  snapshotOf Value.shownName? l.custom l.core

def toValue (l : Lead) : Value :=
  .object (l.core ++ [("custom_fields", l.custom.orElse (.object [])),
    ("created_at", .ofText? (l.createdAt.map Instant.text)),
    ("updated_at", .ofText? (l.updatedAt.map Instant.text))])

end Lead

end StageGate
