import StageGate.Json.Writer
import StageGate.Log.Message
import StageGate.Time.Instant

/-!
This module contains the lines of a log, as a document for machines or as a coloured text for people.
-/

namespace StageGate.Log

structure Record where
  level : Value
  logger : Value
  pattern : Value
  moduleName : Value
  functionName : Value
  line : Value
  extra : Fields

def shownExtras : List String :=
  ["method", "path", "status", "duration_ms", "remote_addr", "request_id", "actor", "lead_id",
    "pipeline_id", "entry_id", "event_type"]

namespace Record

def extra? (r : Record) (key : String) : Option Value :=
  (Fields.get? r.extra key).filter (!·.isNull)

def overridden (r : Record) : Record :=
  let known (key : String) (usual : Value) : Value := Fields.getD r.extra key usual
  { r with
    level := known "levelname" r.level
    logger := known "name" r.logger
    pattern := known "msg" r.pattern
    moduleName := known "module" r.moduleName
    functionName := known "funcName" r.functionName
    line := known "lineno" r.line }

def document (now : Instant) (r : Record) (message : String) : String :=
  let base : Fields := [("timestamp", .text now.zonedText), ("level", r.level),
    ("logger", r.logger), ("message", .text message), ("module", r.moduleName),
    ("function", r.functionName), ("line", r.line)]
  let extras := shownExtras.filterMap fun key => (r.extra? key).map fun v => (key, v)
  Json.write Json.spaced (.object (base ++ extras))

def escape : String := "\x1b"

def colour (level : Value) : Except Fault String :=
  if !level.isKey then .error (.broken .wrongKind)
  else
    .ok <| match level with
    | .text "DEBUG" => escape ++ "[36m"
    | .text "INFO" => escape ++ "[32m"
    | .text "WARNING" => escape ++ "[33m"
    | .text "ERROR" => escape ++ "[31m"
    | .text "CRITICAL" => escape ++ "[35m"
    | _ => ""

def levelWidth : Nat := 8

def levelText (level : Value) : Except Fault String :=
  match level with
  | .null | .list _ | .object _ => .error (.broken .wrongKind)
  | .bool b => .ok (padded (if b then "1" else "0"))
  | v => .ok (padded v.toText)
where
  padded (s : String) : String :=
    s ++ String.ofList (List.replicate (levelWidth - s.length) ' ')

def duration (v : Value) : Except Fault String :=
  match v with
  | .text _ => .error (.broken .notAnInteger)
  | .decimal x => .ok (shown (x.fixedText 0))
  | v => v.toFloat.map fun x => shown (x.fixedText 0)
where
  shown (milliseconds : String) : String :=
    " [" ++ milliseconds ++ "ms]"

def entryText (r : Record) : String :=
  ((r.extra? "entry_id").map fun v => " (entry " ++ v.toText ++ ")").getD ""

def durationText (r : Record) : Except Fault String :=
  ((r.extra? "duration_ms").map duration).getD (.ok "")

def coloured (now : Instant) (r : Record) (message : Except Fault String) : Except Fault String := do
  let time := Instant.clockText (now.micros.toNat % Instant.microsPerDay / Instant.microsPerSecond)
  let command ← colour r.level
  let duration ← r.durationText
  let text ← message
  let level ← levelText r.level
  return command ++ time ++ " " ++ level ++ escape ++ "[0m " ++ r.logger.toText ++ ": " ++ text ++
    r.entryText ++ duration

end Record

inductive Form where
  | document
  | coloured
  deriving DecidableEq

def line (form : Form) (now : Instant) (r : Record) (args : List Value) : Except Fault String :=
  let r := r.overridden
  let message := message r.pattern.toText args
  match form with
  | .document => message.map fun message => r.document now message
  | .coloured => r.coloured now message

end StageGate.Log
