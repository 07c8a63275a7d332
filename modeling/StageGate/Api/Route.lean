import StageGate.Numeral
import StageGate.Text.Split

/-!
This module contains the addresses of the service: what each of them leads to, and the method it takes.
-/

namespace StageGate.Api

inductive Method where
  | get
  | post
  | put
  deriving DecidableEq

inductive Route where
  | ready
  | live
  | pipelines
  | pipeline (id : Int)
  | pipelineHealth (id : Int)
  | stages (pipeline : Int)
  | criteria (stage : Int)
  | criterion (id : Int)
  | leads
  | lead (id : Int)
  | checklist (lead criterion : Int)
  | approval (lead criterion : Int)
  | enroll (pipeline : Int)
  | enrollBulk (pipeline : Int)
  | entries (pipeline : Int)
  | entry (id : Int)
  | history (entry : Int)
  | preview (entry : Int)
  | advance (entry : Int)
  | archive (entry : Int)
  | transfer (entry : Int)
  | file
  deriving DecidableEq

namespace Route

def method : Route → Method
  | .ready | .live | .pipeline _ | .pipelineHealth _ | .lead _ | .entries _ | .entry _ | .history _
  | .file => .get
  | .pipelines | .stages _ | .criteria _ | .leads | .enroll _ | .enrollBulk _ | .preview _ | .advance _
  | .archive _ | .transfer _ => .post
  | .criterion _ | .checklist .. | .approval .. => .put

def id? (segment : String) : Option Int :=
  let digits := segment.toList.map Numeral.plainDigit
  if !digits.isEmpty && digits.all Numeral.isDigit then some (Numeral.valueOf digits) else none

def ofSegments? : List String → Option Route
  | ["health", "ready"] => some .ready
  | ["health", "live"] => some .live
  | ["pipelines"] => some .pipelines
  | ["pipelines", p] => (id? p).map .pipeline
  | ["pipelines", p, "health"] => (id? p).map .pipelineHealth
  | ["pipelines", p, "stages"] => (id? p).map .stages
  | ["pipelines", p, "enroll"] => (id? p).map .enroll
  | ["pipelines", p, "enroll-bulk"] => (id? p).map .enrollBulk
  | ["pipelines", p, "entries"] => (id? p).map .entries
  | ["stages", s, "criteria"] => (id? s).map .criteria
  | ["criteria", c] => (id? c).map .criterion
  | ["leads"] => some .leads
  | ["leads", l] => (id? l).map .lead
  | ["leads", l, "criteria", c, "checklist"] => return .checklist (← id? l) (← id? c)
  | ["leads", l, "criteria", c, "approval"] => return .approval (← id? l) (← id? c)
  | ["pipeline-entries", e] => (id? e).map .entry
  | ["pipeline-entries", e, "history"] => (id? e).map .history
  | ["pipeline-entries", e, "preview"] => (id? e).map .preview
  | ["pipeline-entries", e, "advance"] => (id? e).map .advance
  | ["pipeline-entries", e, "archive"] => (id? e).map .archive
  | ["pipeline-entries", e, "transfer"] => (id? e).map .transfer
  | _ => none

def segments (path : List Char) : List String :=
  (Text.split '/' path).map String.ofList

def ofPath? (path : List Char) : Option Route :=
  match segments path with
  | "" :: "api" :: "v1" :: rest => ofSegments? rest
  | "" :: "static" :: name :: _ => if name = "" then none else some .file
  | _ => none

/-- Whether a number of a path has more digits than are turned into an integer. -/
def isOverlong (path : List Char) : Bool :=
  match ofPath? path with
  | none | some .file => false
  | some _ => (segments path).any (longestInteger < ·.length)

def mergeSlashes : List Char → List Char
  | '/' :: '/' :: cs => mergeSlashes ('/' :: cs)
  | c :: cs => c :: mergeSlashes cs
  | [] => []

end Route

end StageGate.Api
