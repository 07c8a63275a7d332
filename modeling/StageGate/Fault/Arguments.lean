import StageGate.Json.Writer
import StageGate.Value.Members
import StageGate.Value.Order

/-!
This module contains the making of refusals from their names and arguments, which may be any values. A
parameter that is left open is null.
-/

namespace StageGate

structure Arguments where
  ordered : List Value
  named : Fields

namespace Arguments

def bind (a : Arguments) (required optional : List String) : Except Fault Fields :=
  let names := required ++ optional
  let given := names.zip a.ordered
  let isOpen (name : String) : Bool := names.contains name && !Fields.has given name
  let bound := given ++ a.named
  if a.ordered.length ≤ names.length && a.named.all (isOpen ·.1) && required.all (Fields.has bound) then
    .ok bound
  else
    .error (.broken .wrongKind)

def shown (a : Arguments) : Except Fault String :=
  if !a.named.isEmpty then .error (.broken .wrongKind)
  else
    match a.ordered with
    | [] => .ok ""
    | [v] => .ok v.toText
    | vs => .ok ("(" ++ ", ".intercalate (Value.shownItems vs) ++ ")")

end Arguments

def Value.memberName : Value → Except Fault String
  | .text s => .ok s
  | .decimal _ => .error (.broken .wrongKind)
  | v => .ok (Json.write Json.compact v)

def Members.document (members : Members) : Except Fault Fields := do
  let _ ← Value.sort (members.map (·.1))
  members.foldlM (fun fields m => return Fields.set fields (← m.1.memberName) m.2) []

namespace Refusal

def checkSeconds (v : Value) : Except Fault Unit :=
  match v with
  | .text _ => .error (.broken .notADuration)
  | .int n => if (Binary64.ofInt n).bounded?.isNone then .error (.broken .tooLarge) else .ok ()
  | .bool _ | .float _ | .decimal _ => .ok ()
  | _ => .error (.broken .wrongKind)

def placedDetails (details path : Value) : Except Fault Fields := do
  let members ← details.asMembers
  let isOpen := !members.any fun m => m.1.same (.text "path")
  (if path.isTrue && isOpen then members.set (.text "path") path else members).document

def ofArguments (name : String) (a : Arguments) : Except Fault (Option Refusal) :=
  match name with
  | "NotFoundError" => do
    let v ← a.bind ["resource"] ["resource_id"]
    return some (.notFound (text v "resource") (value v "resource_id"))
  | "ValidationError" => do
    let v ← a.bind ["message"] ["details"]
    return some (.invalid (text v "message") ((value v "details").orElse (.object [])))
  | "ConfigurationError" => do
    let v ← a.bind ["message"] ["path", "details"]
    let path := value v "path"
    return some (.misconfigured (text v "message") (path.orElse (.text "")).toText
      (← placedDetails (value v "details") path))
  | "StateConflict" => do
    return some (.conflict (← a.shown))
  | "AlreadyEnrolled" => do
    let v ← a.bind ["lead_id", "pipeline_id"] ["entry_id"]
    return some (.alreadyEnrolled (value v "lead_id") (value v "pipeline_id") (value v "entry_id") none)
  | "NotActive" => do
    let v ← a.bind ["entry_id", "status"] []
    return some (.notActive (value v "entry_id") (value v "status"))
  | "InvalidTarget" => do
    let v ← a.bind ["entry_id", "target_stage_id", "reason"] []
    return some (.invalidTarget (value v "entry_id") (value v "target_stage_id") (value v "reason"))
  | "StageCapacityReached" => do
    let v ← a.bind ["entry_id", "target_stage_id", "wip_limit"] []
    return some (.capacityReached (value v "entry_id") (value v "target_stage_id") (value v "wip_limit"))
  | "ConcurrencyTimeout" => do
    let v ← a.bind ["lead_id", "pipeline_id", "timeout"] ["stage_id"]
    checkSeconds (value v "timeout")
    return some (.timedOut (value v "lead_id") (value v "pipeline_id") (value v "timeout")
      (value v "stage_id"))
  | _ => .ok none
where
  value (v : Fields) (key : String) : Value := Fields.getD v key .null
  text (v : Fields) (key : String) : String := (value v key).toText

end Refusal

end StageGate
