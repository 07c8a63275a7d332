import StageGate.Value.Text

/-!
This module contains the reasons for which an operation fails. A refusal is an answer: the request is
understood and turned down. A breakdown is not: the request asks for something that cannot be computed
or stored.
-/

namespace StageGate

/--
What a request is turned down for. Ids, limits and reasons are shown as they were given, whatever value
was given for them.
-/
inductive Refusal where
  | notFound (resource : String) (id : Value)
  | invalid (reason : String) (details : Value)
  | misconfigured (reason : String) (path : String) (details : Fields)
  | conflict (reason : String)
  -- The constraint is there where only the store has found that out, and the entry is null then.
  | alreadyEnrolled (lead pipeline entry : Value) (constraint : Option String)
  | notActive (entry status : Value)
  | invalidTarget (entry stage reason : Value)
  | capacityReached (entry stage limit : Value)
  | timedOut (lead pipeline seconds stage : Value)
  deriving DecidableEq

namespace Refusal

def message : Refusal → String
  | .notFound resource id =>
    resource ++ (if id.isNull then "" else " id=" ++ id.toText) ++ " not found"
  | .invalid reason _ | .conflict reason => reason
  | .misconfigured reason path _ => if path = "" then reason else path ++ ": " ++ reason
  | .alreadyEnrolled lead pipeline _ _ =>
    "Lead " ++ lead.toText ++ " already has an active entry in pipeline " ++ pipeline.toText
  | .notActive entry status =>
    "Pipeline entry " ++ entry.toText ++ " is not active (status=" ++ status.toText ++ ")"
  | .invalidTarget entry stage reason => moveText entry stage reason.toText
  | .capacityReached entry stage limit =>
    moveText entry stage ("stage is at its WIP limit of " ++ limit.toText)
  | .timedOut lead pipeline seconds stage =>
    "Timed out after " ++ seconds.generalText ++ "s waiting for lead " ++ lead.toText ++
      " / pipeline " ++ pipeline.toText ++
      (if stage.isNull then "" else " (capacity of stage " ++ stage.toText ++ ")")
where
  moveText (entry stage : Value) (reason : String) : String :=
    "Cannot move entry " ++ entry.toText ++ " to stage " ++ stage.toText ++ ": " ++ reason

def details? : Refusal → Option Value
  | .invalid _ details => some details
  | .misconfigured _ path details =>
    some (.object (if path = "" || details.has "path" then details
      else details ++ [("path", .text path)]))
  | _ => none

def conflictCode? : Refusal → Option String
  | .conflict _ => some "state_conflict"
  | .alreadyEnrolled .. => some "already_enrolled"
  | .notActive .. => some "not_active"
  | .invalidTarget .. => some "invalid_target"
  | .capacityReached .. => some "stage_capacity_reached"
  | _ => none

def entryId : Refusal → Value
  | .alreadyEnrolled _ _ entry _ => entry
  | .notActive entry _ | .invalidTarget entry _ _ | .capacityReached entry _ _ => entry
  | _ => .null

end Refusal

inductive Breakdown where
  | tooLarge
  | wrongKind
  | notAnObject
  | notAnInteger
  | notPaired
  | notADuration
  -- What is not a number, in a calculation that needs one.
  | noNumber
  | missing
  | unknownKind
  | unknownSubject (reason : String)
  | violated (constraint : String)
  | unstorable
  | unprepared
  -- A list or an object that names no row.
  | unidentified
  -- A query with more variables than can be bound.
  | overloaded
  | unencodable
  | illegalCharacter
  | tooDeep (isObject : Bool)
  | missingSetting (reason : String)
  -- A lock that another owner holds, waited for without end.
  | stuck
  deriving DecidableEq

def Breakdown.message? : Breakdown → Option String
  | .unknownSubject reason | .violated reason | .missingSetting reason => some reason
  | .tooDeep isObject =>
    some ("maximum recursion depth exceeded while decoding a JSON " ++
      (if isObject then "object" else "array") ++ " from a unicode string")
  | _ => none

inductive Fault where
  | refused (refusal : Refusal)
  | broken (breakdown : Breakdown)
  deriving DecidableEq

def Fault.constraint? : Fault → Option String
  | .broken (.violated constraint) => some constraint
  | .refused (.alreadyEnrolled _ _ _ constraint) => constraint
  | _ => none

instance : Coe Refusal Fault := ⟨.refused⟩

instance : Coe Breakdown Fault := ⟨.broken⟩

namespace Value

def members : Value → Except Fault Fields
  | .object fields => .ok fields
  | _ => .error (.broken .notAnObject)

def printed (v : Value) : Except Fault String :=
  if v.isWritable then .ok v.shown else .error (.broken .notAnInteger)

end Value

end StageGate
