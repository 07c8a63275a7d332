import StageGate.Administration
import StageGate.Advancement
import StageGate.Api.Request
import StageGate.Api.Response
import StageGate.Api.Route
import StageGate.Closing

/-!
This module contains the handling of requests. The members of a document are checked one after the other,
and the first that is not as it should be is answered; the operation itself comes last.
-/

namespace StageGate.Api

open Operation

structure Context where
  environment : Environment
  -- The stack has room for documents of so many levels, and for all that is done with them.
  levels : Nat
  request : Request
  address : Address

namespace Context

def author (c : Context) : Configuration.Author :=
  ⟨.text c.request.actor, c.environment.now⟩

def call (c : Context) : Call :=
  c.environment.call (.text c.request.actor) none .null

def data (c : Context) : Except Fault Value :=
  c.request.data c.levels

end Context

abbrev Handler := ExceptT Response Operation

namespace Handler

def toOperation (h : Handler Response) : Operation Response := do
  match ← h.run with
  | .ok r => return r
  | .error r => return r

def reject {α : Type} (code : Code) (message : String) : Handler α :=
  throw (.error code message .null)

def integerOrNull (data : Fields) (key : String) : Handler Value :=
  match Fields.getD data key .null with
  | .null => return .null
  | .int n => return .int n
  | _ => reject .invalid (key ++ " must be an integer")

def integer (data : Fields) (key : String) : Handler Value := do
  match ← integerOrNull data key with
  | .null => reject .required (key ++ " is required")
  | v => return v

def objectOrNull (data : Fields) (key : String) : Handler Value :=
  match Fields.getD data key .null with
  | .null => return .null
  | .object fields => return .object fields
  | _ => reject .invalid (key ++ " must be an object")

def textOrNull (data : Fields) (key : String) : Handler Value :=
  match Fields.getD data key .null with
  | .null => return .null
  | .text s => return .text s
  | _ => reject .invalid (key ++ " must be a string")

def compute {α : Type} (result : Except Fault α) : Operation α :=
  reading fun _ => result

def members (c : Context) : Operation Fields :=
  compute do (← c.data).members

end Handler

open Handler

/-! ## Configuration -/

def createPipeline (c : Context) : Operation Response := do
  let data ← compute c.data
  let p ← Administration.createPipeline c.author data
  return .created ((← get).store.pipelineValue p)

def showPipeline (id : Int) : Operation Response := do
  let p ← reading (·.pipeline (.int id))
  return .ok ((← get).store.pipelineValue p)

def showHealth (c : Context) (pipeline : Int) : Operation Response := do
  let summary ←
    Administration.healthSummary c.environment.window (.int pipeline) c.environment.now
  return .ok summary.toValue

def addStage (c : Context) (pipeline : Int) : Operation Response := do
  let data ← compute c.data
  let stage ← Administration.addStage c.author (.int pipeline) data
  return .created ((← get).store.stageValue stage)

def addCriterion (c : Context) (stage : Int) : Operation Response := do
  let data ← compute c.data
  return .created (← Administration.addCriterion c.author (.int stage) data).toValue

def updateCriterion (c : Context) (criterion : Int) : Operation Response := do
  let data ← compute c.data
  return .ok (← Administration.updateCriterion c.author (.int criterion) data true).toValue

/-! ## Leads and flags -/

def longestLeadName : Nat := 200

def createLead (c : Context) : Handler Response := do
  let data ← members c
  let some name := Configuration.nameOf? data longestLeadName
    | reject .required "name is required and must be <= 200 chars"
  let custom ← objectOrNull data "custom_fields"
  let score ← integerOrNull data "lead_score"
  let plain := ["email", "phone", "company", "source"].map fun key => (key, Fields.getD data key .null)
  let lead ← Administration.createLead c.environment.now
    ([("name", .text name)] ++ plain ++
      [("lead_score", score), ("custom_fields", custom.orElse (.object []))])
  return .created lead.toValue

def showLead (id : Int) : Operation Response := do
  return .ok (← reading (·.lead (.int id))).toValue

def mentions (data : Value) (key : String) : Except Fault Bool :=
  match data with
  | .object fields => .ok (Fields.has fields key)
  | .list items => .ok (items.any (· = .text key))
  | .text s => .ok (Text.occursIn key.toList s.toList)
  | _ => .error (.broken .wrongKind)

def setFlag (c : Context) (flag : Flagging.Flag) (lead criterion : Int) : Operation Response := do
  let data ← compute c.data
  if ← compute (mentions data flag.name) then
    let fields ← compute data.members
    let row ← Administration.setFlag c.author (.int lead) (.int criterion) flag
      (Fields.getD fields flag.name .null).isTrue (Fields.getD fields "notes" .null)
    return .ok row.toValue
  else
    return .error .required (flag.name ++ " is required") .null

/-! ## Entries -/

def enroll (c : Context) (pipeline : Int) : Handler Response := do
  let data ← members c
  let lead ← integer data "lead_id"
  let note ← textOrNull data "note"
  return .created (← Enrollment.enroll c.call lead (.int pipeline) note).toValue

def mostLeads : Nat := 500

def integers? : Value → Option (List Value)
  | .list items => if items.all (·.asInt?.isSome) then some items else none
  | _ => none

def enrollBulk (c : Context) (pipeline : Int) : Handler Response := do
  let data ← members c
  let given := Fields.getD data "lead_ids" .null
  if !given.isTrue then reject .required "lead_ids is required"
  let some leads := integers? given
    | reject .invalid "lead_ids must be a list of integers"
  if mostLeads < leads.length then
    reject .invalid ("at most " ++ toString mostLeads ++ " leads per request")
  let .bool skipExisting := Fields.getD data "skip_existing" (.bool true)
    | reject .invalid "skip_existing must be a boolean"
  let note ← textOrNull data "note"
  let bulk ← Enrollment.enrollMany c.call (.list leads) (.int pipeline) skipExisting note
  return ⟨if bulk.enrolled.isEmpty then 200 else 201, bulk.toValue⟩

def listed (items : List Value) : Value :=
  .object [("items", .list items), ("total", .int items.length)]

def listEntries (c : Context) (pipeline : Int) : Operation Response := do
  let views ← reading fun s => do
    Column.checkInt pipeline
    (s.activeEntries pipeline).mapM (s.view c.call.window c.call.now)
  let bucket := (c.address.parameters.lookup "health").getD ""
  let wanted := views.filter fun v => bucket = "" || v.health.any (·.bucket.name = bucket)
  return .ok (listed (wanted.map EntryView.toValue))

def showEntry (c : Context) (entry : Int) : Operation Response := do
  let view ← reading fun s => do s.view c.call.window c.call.now (← s.entry (.int entry))
  return .ok view.toValue

def showHistory (entry : Int) : Operation Response := do
  let rows ← reading fun s => do (s.history (← s.entry (.int entry))).mapM AuditRow.toValue
  return .ok (listed rows)

def preview (c : Context) (entry : Int) : Handler Response := do
  let data ← members c
  let context ← objectOrNull data "context"
  return .ok (← Advancement.preview c.call (.int entry) ⟨.null, context⟩).toValue

def advance (c : Context) (entry : Int) : Handler Response := do
  let data ← members c
  let target ← integer data "target_stage_id"
  let context ← objectOrNull data "context"
  let note ← textOrNull data "note"
  let move ← Advancement.advance c.call (.int entry) target ⟨.null, context⟩ note
  if move.ok then
    return .ok move.toValue
  else
    return .error .criteriaNotMet move.verdict.summary move.toValue

def archive (c : Context) (entry : Int) : Handler Response := do
  let data ← members c
  let reason ← textOrNull data "reason"
  return .ok (← Closing.archive c.call (.int entry) reason).toValue

def transfer (c : Context) (entry : Int) : Handler Response := do
  let data ← members c
  let pipeline ← integer data "target_pipeline_id"
  let reason ← textOrNull data "reason"
  let note ← textOrNull data "note"
  return .created (← Closing.transfer c.call (.int entry) pipeline reason note).toValue

/-! ## The service itself -/

def showLive : Operation Response := do
  let held := (← get).locks.table.length
  let status : String × Value := ("status", .text "ok")
  return .ok (.object [("status", .text "healthy"), ("checks", .object [
    ("database", .object [status]), ("entry_locks", .object [status, ("held_keys", .int held)]),
    ("app", .object [("name", .text "Lead Pipeline Tracker"), ("debug", .bool false),
      ("testing", .bool true)])])])

def handle (c : Context) : Route → Operation Response
  | .ready => return .ok (.object [("status", .text "ok")])
  | .live => showLive
  | .pipelines => createPipeline c
  | .pipeline id => showPipeline id
  | .pipelineHealth id => showHealth c id
  | .stages pipeline => addStage c pipeline
  | .criteria stage => addCriterion c stage
  | .criterion id => updateCriterion c id
  | .leads => (createLead c).toOperation
  | .lead id => showLead id
  | .checklist lead criterion => setFlag c .done lead criterion
  | .approval lead criterion => setFlag c .approved lead criterion
  | .enroll pipeline => (enroll c pipeline).toOperation
  | .enrollBulk pipeline => (enrollBulk c pipeline).toOperation
  | .entries pipeline => listEntries c pipeline
  | .entry id => showEntry c id
  | .history entry => showHistory entry
  | .preview entry => (preview c entry).toOperation
  | .advance entry => (advance c entry).toOperation
  | .archive entry => (archive c entry).toOperation
  | .transfer entry => (transfer c entry).toOperation
  | .file => return .nowhere (String.ofList c.address.plainPath)

def settled (op : Operation Response) (s : Service) : Response × Service :=
  match op s with
  | (.ok r, s) => (r, s)
  | (.error (.refused refusal), s) => (.ofRefusal refusal, s)
  | (.error (.broken _), s) => (.broken, s)

def method? (r : Request) : Option Method :=
  let method := r.method.toUpper
  if method = "GET" || method = "HEAD" then some .get
  else if method = "POST" then some .post
  else if method = "PUT" then some .put
  else none

def answer (c : Context) (s : Service) : Response × Service :=
  let path := c.address.plainPath
  let merged := Route.mergeSlashes path
  let asks := c.request.method.toUpper = "OPTIONS"
  match Route.ofPath? path, Route.ofPath? merged with
  | some route, _ =>
    if asks || method? c.request = some route.method then
      -- The numbers of a path are read once its method is known.
      if Route.isOverlong path then (.broken, s)
      else if asks then (.ok .null, s)
      else settled (handle c route) s
    else (.wrongMethod, s)
  | none, some route =>
    if asks || method? c.request = some route.method then (⟨308, .null⟩, s)
    else (.wrongMethod, s)
  | none, none => (.nowhere (String.ofList path), s)

def respond (environment : Environment) (levels : Nat) (r : Request) (s : Service) :
    Except Fault Response × Service :=
  match r.destination with
  | .error e => (.error e, s)
  | .ok address =>
    let (response, s) := answer ⟨environment, levels, r, address⟩ s
    if r.method.toUpper = "HEAD" then (.ok { response with body := .null }, s) else (.ok response, s)

end StageGate.Api
