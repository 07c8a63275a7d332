import StageGate.Criterion
import StageGate.Rule.Evaluation
import StageGate.Value.Equality

/-!
This module contains the verdict on the criteria of a stage: each criterion is met or not, and one that is
not met blocks if it is mandatory and warns if it is not.
-/

namespace StageGate

structure Flags where
  done : Bool
  approved : Bool
  deriving DecidableEq, Inhabited

namespace Flags

def none : Flags := ⟨false, false⟩

def ofValue (v : Value) : Flags :=
  ⟨(v.get "done").isTrue, (v.get "approved").isTrue⟩

def toValue (f : Flags) : Value :=
  .object [("done", .bool f.done), ("approved", .bool f.approved)]

end Flags

abbrev FlagTable := List (Int × Flags)

def FlagTable.of (table : FlagTable) (id : Value) : Flags :=
  ((table.find? fun row => Value.same (.int row.1) id).map (·.2)).getD .none

inductive Classification where
  | passed
  | blocker
  | warning
  deriving DecidableEq

namespace Classification

def name : Classification → String
  | .passed => "passed"
  | .blocker => "blocker"
  | .warning => "warning"

def of (met mandatory : Bool) : Classification :=
  if met then .passed else if mandatory then .blocker else .warning

end Classification

namespace Check

def isMandatory (c : Check) : Bool :=
  c.mandatory.isTrue

def isMet (facts : Facts) (flags : Flags) (c : Check) : Except Fault Bool :=
  match c.demand with
  | .done => .ok flags.done
  | .approved => .ok flags.approved
  | .holds rule => rule.holds facts

def message (c : Check) (met : Bool) : String :=
  match c.demand with
  | .done => if met then "Checklist complete" else "Checklist pending: " ++ c.name.toText
  | .approved => c.name.toText ++ if met then ": approved" else ": awaiting manual approval"
  | .holds _ => c.name.toText ++ if met then ": met" else ": not met"

end Check

structure Outcome where
  check : Check
  met : Bool

namespace Outcome

def classification (o : Outcome) : Classification :=
  .of o.met o.check.isMandatory

def toValue (o : Outcome) : Value :=
  .object [("criterion_id", o.check.id), ("name", o.check.name),
    ("kind", .text o.check.kind.name), ("mandatory", o.check.mandatory),
    ("met", .bool o.met), ("classification", .text o.classification.name),
    ("message", .text (o.check.message o.met))]

end Outcome

structure Verdict where
  outcomes : List Outcome

namespace Verdict

def only (v : Verdict) (c : Classification) : List Outcome :=
  v.outcomes.filter (·.classification = c)

def blockers (v : Verdict) : List Outcome :=
  v.only .blocker

def warnings (v : Verdict) : List Outcome :=
  v.only .warning

def passed (v : Verdict) : List Outcome :=
  v.only .passed

def canAdvance (v : Verdict) : Bool :=
  v.blockers.isEmpty

def summary (v : Verdict) : String :=
  let total := toString v.outcomes.length
  if !v.blockers.isEmpty then
    "BLOCKED - " ++ toString v.blockers.length ++ " mandatory criteria not met"
  else if !v.warnings.isEmpty then
    "WARNINGS - " ++ toString v.passed.length ++ "/" ++ total ++ " met, optional criteria pending"
  else
    "ALL PASSED - " ++ total ++ "/" ++ total ++ " criteria met"

def toValue (v : Verdict) : Value :=
  .object [("can_advance", .bool v.canAdvance), ("blockers", .list (v.blockers.map Outcome.toValue)),
    ("warnings", .list (v.warnings.map Outcome.toValue)),
    ("passed", .list (v.passed.map Outcome.toValue)), ("summary", .text v.summary)]

def of (facts : Facts) (flags : FlagTable) : List Check → Except Fault Verdict
  | [] => .ok ⟨[]⟩
  | c :: cs => do
    if !c.id.isKey then throw (.broken .wrongKind)
    let met ← c.isMet facts (flags.of c.id)
    let rest ← of facts flags cs
    return ⟨⟨c, met⟩ :: rest.outcomes⟩

end Verdict

end StageGate
