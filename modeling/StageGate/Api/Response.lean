import StageGate.Fault
import StageGate.Value.Equality
import StageGate.Value.Normal

/-!
This module contains the answers to requests, and the codes and statuses that refusals are answered with.
-/

namespace StageGate.Api

structure Response where
  status : Nat
  body : Value
  deriving DecidableEq

inductive Code where
  | required
  | invalid
  | configuration
  | notFound
  | conflict
  | invalidTarget
  | criteriaNotMet
  | timeout
  | internal
  deriving DecidableEq

namespace Code

def all : List Code :=
  [.required, .invalid, .configuration, .notFound, .conflict, .invalidTarget, .criteriaNotMet,
    .timeout, .internal]

def name : Code → String
  | .required => "ERR_VALIDATION_REQUIRED"
  | .invalid => "ERR_VALIDATION_INVALID"
  | .configuration => "ERR_CONFIGURATION"
  | .notFound => "ERR_NOT_FOUND"
  | .conflict => "ERR_CONFLICT_STATE"
  | .invalidTarget => "ERR_INVALID_TARGET"
  | .criteriaNotMet => "ERR_CRITERIA_NOT_MET"
  | .timeout => "ERR_CONCURRENCY_TIMEOUT"
  | .internal => "ERR_INTERNAL"

def status : Code → Nat
  | .required => 400
  | .invalid | .configuration => 422
  | .notFound => 404
  | .conflict | .invalidTarget | .criteriaNotMet => 409
  | .timeout => 503
  | .internal => 500

def ofName? (s : String) : Option Code :=
  all.find? (·.name = s)

end Code

def errorBody (code message details : Value) : Value :=
  Value.normal (.object ([("error", message), ("code", code)] ++
    if details.isTrue then [("details", details)] else []))

def errorStatus (code status : Value) : Except Fault Value :=
  if status.isTrue then .ok status
  else if !code.isKey then .error (.broken .wrongKind)
  else .ok (.int (((code.asText?.bind Code.ofName?).map Code.status).getD 400))

namespace Response

def error (code : Code) (message : String) (details : Value) : Response :=
  ⟨code.status, errorBody (.text code.name) (.text message) details⟩

def ofRefusal (r : Refusal) : Response :=
  let details := r.details?.getD .null
  match r with
  | .notFound .. => error .notFound r.message .null
  | .misconfigured .. => error .configuration r.message details
  | .invalid .. => error .invalid r.message details
  | .conflict .. | .alreadyEnrolled .. | .notActive .. =>
    error .conflict r.message (.object (reason r ++ optional "entry_id" r.entryId))
  | .invalidTarget _ target _ | .capacityReached _ target _ =>
    error .invalidTarget r.message (.object (reason r ++ [("target_stage_id", target)]))
  | .timedOut _ _ _ stage =>
    error .timeout r.message (.object ([("retryable", .bool true)] ++ optional "stage_id" stage))
where
  reason (r : Refusal) : Fields := [("reason", .ofText? r.conflictCode?)]
  optional (key : String) (v : Value) : Fields := if v.isNull then [] else [(key, v)]

def broken : Response :=
  error .internal "Internal server error" .null

def nowhere (path : String) : Response :=
  ⟨404, .object [("error", .text "Not found"), ("code", .text Code.notFound.name),
    ("path", .text path)]⟩

def wrongMethod : Response :=
  ⟨405, .object [("error", .text "Method not allowed")]⟩

def ok (body : Value) : Response :=
  ⟨200, body⟩

def created (body : Value) : Response :=
  ⟨201, body⟩

end Response

end StageGate.Api
