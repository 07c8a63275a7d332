import StageGate.Pipeline
import StageGate.Value.Arithmetic

/-!
This module contains the structural check of a pipeline: it has stages, their orders are distinct and
without gaps, and their deadlines and limits make sense.
-/

namespace StageGate

def Value.isDeadline : Value → Bool
  | .int n => 0 ≤ n
  | _ => false

def Value.isLimit : Value → Bool
  | .null => true
  | .int n => 1 ≤ n
  | _ => false

def checkStageValues (path : String) (deadline limit : Value) : Except Fault Unit :=
  if !deadline.isDeadline then
    .error (.refused (.misconfigured "sla_deadline_days must be an integer >= 0"
      (path ++ ".sla_deadline_days") []))
  else if !limit.isLimit then
    .error (.refused (.misconfigured "wip_limit must be an integer >= 1" (path ++ ".wip_limit") []))
  else
    .ok ()

structure StageShape where
  label : Value
  order : Value
  deadline : Value
  limit : Value

namespace StageShape

def check (s : StageShape) : Except Fault Unit :=
  checkStageValues ("stage[" ++ s.label.toText ++ "]") s.deadline s.limit

end StageShape

def Stage.shape (s : Stage) : StageShape :=
  ⟨.int s.id, s.order, s.deadline, s.limit⟩

namespace Pipeline

def areDistinct : List Value → Except Fault Bool
  | [] => .ok true
  | v :: vs =>
    if !v.isKey then .error (.broken .wrongKind)
    else (areDistinct vs).map (!vs.any v.same && ·)

def isRun (first : Int) : List Value → Bool
  | [] => true
  | v :: vs => v.same (.int first) && isRun (first + 1) vs

def isContiguous : List Value → Except Fault Bool
  | [] => .ok true
  | v :: vs =>
    match v.whole? with
    | some first => .ok (isRun first (v :: vs))
    | none => .error (.broken .wrongKind)

def validateShape (label : Value) (stages : List StageShape) : Except Fault Unit := do
  if stages.isEmpty then refuse " has no stages"
  let orders ← Value.sort (stages.map (·.order))
  let shown := (Value.list orders).shown
  if !(← areDistinct orders) then refuse (" has duplicate stage orders: " ++ shown)
  if !(← isContiguous orders) then refuse (" stage orders are not contiguous: " ++ shown)
  stages.forM StageShape.check
where
  refuse (reason : String) : Except Fault Unit :=
    .error (.refused (.misconfigured ("pipeline " ++ label.toText ++ reason) "" []))

end Pipeline

end StageGate
