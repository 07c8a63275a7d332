import StageGate.Store.Draft
import StageGate.Text.Blank
import StageGate.Value.Integer
import StageGate.Value.Members

/-!
This module contains the writing of the configuration from documents. Names, deadlines, limits, kinds and
rules are checked before anything is stored, and rules are stored in their written form.
-/

namespace StageGate.Configuration

open Transaction

/-! ## Reading documents -/

def textOf (fields : Fields) (key : String) : String :=
  ((Fields.getD fields key .null).orElse (.text "")).toText

def nameOf? (fields : Fields) (longest : Nat) : Option String :=
  let name := Text.trim (textOf fields "name")
  if name = "" || longest < name.length then none else some name

def longestName : Nat := 100

def requireName (fields : Fields) : Except Fault String :=
  match nameOf? fields longestName with
  | some name => .ok name
  | none =>
    .error (.refused (.invalid "name is required and must be <= 100 chars"
      (.object [("name", .text "invalid")])))

def longestDescription : Nat := 2000

def description (fields : Fields) : String :=
  String.ofList ((textOf fields "description").toList.take longestDescription)

def isSet (fields : Fields) (key : String) (fallback : Bool) : Bool :=
  (Fields.getD fields key (.bool fallback)).isTrue

def requireKind (kind : Value) : Except Fault Kind :=
  match Kind.ofValue? kind with
  | some kind => .ok kind
  | none =>
    Rule.fault "criterion.kind"
      ("kind must be one of " ++ (Value.list (Kind.all.map (.text ·.name))).shown)

def storedRule (kind : Kind) (rule : Value) : Except Fault Value := do
  return .ofOption Rule.toValue (← kind.readRule "criterion.rule" rule)

/-! ## Writing rows -/

structure Author where
  name : Value
  now : Instant

def checkTexts (name description : String) : Except Fault Unit := do
  Column.checkText name
  Column.checkText description

def checkColumns (name description : String) (rule : Value) : Except Fault Unit := do
  Column.checkDocument rule
  checkTexts name description

/-- The criterion as its columns take it. -/
def writable (c : Criterion) : Except Fault Criterion := do
  checkColumns c.name (c.description.getD "") c.rule
  return { c with sortOrder := ← Column.number c.sortOrder }

def recordCreation (a : Author) (subject : Subject) (id pipeline : Int) (diff : Fields) :
    Transaction Unit :=
  record ⟨subject, id, none, some pipeline, .create, a.name, .document (.object diff)⟩ a.now

def criterionOf (a : Author) (stage : Stage) (data : Value) (s : Store) : Except Fault Criterion := do
  let fields ← data.members
  let kind ← requireKind (Fields.getD fields "kind" .null)
  let name ← requireName fields
  let rule ← storedRule kind (Fields.getD fields "rule" .null)
  let position : Int := (s.criteriaOf stage.id).length
  let sortOrder ← (Fields.getD fields "sort_order" (.int position)).toInteger
  return {
    id := Store.nextId (s.criteria.map (·.id))
    stage := stage.id
    name
    description := some (description fields)
    kind := kind.name
    mandatory := isSet fields "mandatory" true
    rule
    sortOrder := .int sortOrder
    isActive := isSet fields "is_active" true
    createdAt := some a.now
    updatedAt := some a.now }

def draftCriterion (a : Author) (stage : Stage) (data : Value) : Draft Criterion := do
  let c ← Draft.look (criterionOf a stage data)
  Draft.write do
    let c ← writable c
    addCriterion c
    recordCreation a .criterion c.id stage.pipeline
      [("name", .text c.name), ("kind", .text c.kind), ("stage_id", .int stage.id)]
    return c

def nextOrder (orders : List Value) : Except Fault Value :=
  match orders.getLast? with
  | some last => last.succ
  | none => .ok (.int 1)

def requireOrder (fields : Fields) (next : Value) : Except Fault Value :=
  let order := Fields.getD fields "order" next
  -- It is answered as it was given: an equal number can be written in another way.
  if order.same next then .ok order
  else
    .error (.refused (.misconfigured
      ("stage order must be " ++ next.shown ++ " to keep orders contiguous") "stage.order" []))

def deadlineOf (fields : Fields) : Value :=
  Fields.getD fields "sla_deadline_days" (.int 0)

def limitOf (fields : Fields) : Value :=
  Fields.getD fields "wip_limit" .null

def stageOf (pipeline : Int) (order : Value) (fields : Fields) (name : String) (s : Store) : Except Fault Stage := do
  Column.checkText name
  return {
    id := Store.nextId (s.stages.map (·.id))
    pipeline
    name
    order := ← Column.number order
    deadline := ← Column.number (deadlineOf fields)
    entryCriteria := ← Column.text (Fields.getD fields "entry_criteria" .null)
    exitCriteria := ← Column.text (Fields.getD fields "exit_criteria" .null)
    isTerminal := isSet fields "is_terminal" false
    limit := ← Column.number (limitOf fields) }

def draftStageAfter (a : Author) (pipeline : Int) (orders : List Value) (data : Value) : Draft (Stage × Value) := do
  let fields ← data.members
  let order ← requireOrder fields (← nextOrder orders)
  checkStageValues "stage" (deadlineOf fields) (limitOf fields)
  let name ← requireName fields
  let stage ← Draft.write do
    let stage ← reading (stageOf pipeline order fields name)
    addStage stage
    recordCreation a .stage stage.id pipeline
      [("name", .text stage.name), ("order", order), ("sla_deadline_days", deadlineOf fields)]
    return stage
  for criterion in ← (Fields.getD fields "criteria" .null).items do
    let _ ← draftCriterion a stage criterion
  return (stage, order)

def draftStage (a : Author) (pipeline : Pipeline) (data : Value) : Draft Stage := do
  let orders := ((← get).stagesOf pipeline.id).map (·.order)
  return (← draftStageAfter a pipeline.id orders data).1

def draftStages (a : Author) (pipeline : Int) (added : List (Stage × Value)) :
    List Value → Draft (List (Stage × Value))
  | [] => pure added
  | data :: rest => do
    let next ← draftStageAfter a pipeline (added.map (·.2)) data
    draftStages a pipeline (added ++ [next]) rest

def shapesOf (added : List (Stage × Value)) : List StageShape :=
  added.map fun (stage, order) => { stage.shape with order }

def pipelineOf (a : Author) (fields : Fields) (name : String) (s : Store) : Except Fault Pipeline := do
  checkTexts name (description fields)
  return {
    id := Store.nextId (s.pipelines.map (·.id))
    name
    description := some (description fields)
    isActive := isSet fields "is_active" true
    isPrimary := isSet fields "is_primary" false
    allowJumps := isSet fields "allow_stage_jumps" false
    allowRegression := isSet fields "allow_regression" false
    createdAt := some a.now
    updatedAt := some a.now }

def draftPipeline (a : Author) (data : Value) : Draft Pipeline := do
  let fields ← data.members
  let name ← requireName fields
  let p ← Draft.write do
    let p ← reading (pipelineOf a fields name)
    addPipeline p
    return p
  let added ← draftStages a p.id [] (← (Fields.getD fields "stages" .null).items)
  if !added.isEmpty then Pipeline.validateShape (.int p.id) (shapesOf added)
  Draft.write (recordCreation a .pipeline p.id p.id [("name", .text p.name), ("stages", .int added.length)])
  return p

def ruleChanges (supplied shared : Bool) (old new : Value) : Bool :=
  -- A rule that was not supplied may only have changed its form.
  if supplied then !old.sameIn shared new else old.normal ≠ new.normal

def changesOf (ruleChanged : Bool) (old new : Criterion) : Fields :=
  (old.editable.zip new.editable).filterMap fun ((key, v), (_, w)) =>
    if if key = "rule" then ruleChanged else v ≠ w then
      some (key, Change.pair v w)
    else
      none

/--
Writes what was changed of a criterion, and answers the row with its changes. A column that stays equal is not
written, and the time of the update is that of the last one that wrote a column.
-/
def writeUpdate (a : Author) (c updated : Criterion) (supplied shared : Bool) : Transaction (Criterion × Fields) := do
  let updated ← writable updated
  let ruleChanged := ruleChanges supplied shared c.rule updated.rule
  let changes := changesOf ruleChanged c updated
  let stored := { updated with
    rule := if ruleChanged then updated.rule else c.rule
    updatedAt := if changes.isEmpty then c.updatedAt else some a.now }
  putCriterion stored
  return (stored, changes)

def askedName (c : Criterion) (fields : Fields) : Except Fault String :=
  if fields.has "name" then requireName fields else .ok c.name

def askedDescription (c : Criterion) (fields : Fields) : Option String :=
  if fields.has "description" then some (description fields) else c.description

def askedPlace (c : Criterion) (fields : Fields) : Except Fault Value :=
  match fields.get? "sort_order" with
  | some order => order.toInteger.map .int
  | none => .ok c.sortOrder

/--
Changes what the document mentions of a criterion, one member after the other. A document that was read shares with
the stored rule what is not a number.
-/
def draftUpdate (a : Author) (c : Criterion) (data : Value) (shared : Bool) : Draft Criterion := do
  let fields ← data.members
  let kind ← requireKind (Fields.getD fields "kind" (.text c.kind))
  let rule ← storedRule kind (Fields.getD fields "rule" c.rule)
  let name ← askedName c fields
  let renamed := { c with
    name
    description := askedDescription c fields
    mandatory := isSet fields "mandatory" c.mandatory }
  let sortOrder ← Draft.amid (writeUpdate a c renamed false shared) (askedPlace c fields)
  let updated := { renamed with
    kind := kind.name
    rule
    sortOrder
    isActive := isSet fields "is_active" c.isActive }
  let (stored, changes) ← Draft.write (writeUpdate a c updated (Fields.has fields "rule") shared)
  let pipeline ← Draft.look fun s => (Store.follow (s.stage? c.stage)).map (·.pipeline)
  Draft.write
    (record ⟨.criterion, c.id, none, some pipeline, .update, a.name, .document (.object changes)⟩ a.now)
  return stored

end StageGate.Configuration
