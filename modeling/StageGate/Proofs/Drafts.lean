import StageGate.Administration
import StageGate.Proofs.Outcome

/-!
This module contains what drafts come to in sessions of their own: a session that ends with the draft that failed in
it leaves nothing, so a draft does what a transaction with the same steps does.
-/

namespace StageGate

/-! ## Transactions -/

namespace Transaction

variable {α β : Type}

theorem bind_eq (t : Transaction β) (f : β → Transaction α) (s : Store) :
    (t >>= f) s = t s >>= fun r => f r.1 r.2 :=
  rfl

theorem reading_eq (g : Store → Except Fault α) (s : Store) :
    reading g s = (g s).map (·, s) := by
  cases h : g s <;> simp [reading, bind, StateT.bind, get, getThe, MonadStateOf.get, StateT.get, pure,
    Except.bind, Except.pure, liftM, monadLift, MonadLift.monadLift, StateT.lift, h, Except.map]

theorem reading_bind (g : Store → Except Fault β) (f : β → Transaction α) (s : Store) :
    (reading g >>= f) s = g s >>= (f · s) := by
  rw [bind_eq, reading_eq]
  cases g s <;> rfl

theorem lift_eq (x : Except Fault α) (s : Store) : (liftM x : Transaction α) s = x.map (·, s) := by
  cases x <;> rfl

theorem lift_of_bind (x : Except Fault β) (f : β → Except Fault α) :
    (liftM (x >>= f) : Transaction α) = (liftM x : Transaction β) >>= fun b => liftM (f b) := by
  cases x <;> rfl

/-- What only looks at rows after something was computed may be told as one look. -/
theorem reading_of_lift (x : Except Fault β) (g : β → Store → Except Fault α) :
    (reading fun s => x >>= fun b => g b s) = (liftM x : Transaction β) >>= fun b => reading (g b) := by
  funext s
  rw [bind_eq, lift_eq, reading_eq]
  cases x with
  | error e => rfl
  | ok b => exact (reading_eq (g b) s).symm

theorem reading_of_bind (f : Store → Except Fault β) (g : β → Store → Except Fault α) :
    (reading fun s => f s >>= fun b => g b s) = reading f >>= fun b => reading (g b) := by
  funext s
  rw [reading_bind, reading_eq]
  cases f s with
  | error e => rfl
  | ok b => exact (reading_eq (g b) s).symm

end Transaction

/-! ## Drafts -/

namespace Draft

variable {α β : Type}

/-- A draft in a session of its own, of which nothing is left if it fails. -/
def settle (d : Draft α) : Transaction α := fun s =>
  match d s with
  | .ok r => .ok r
  | .error f => .error f.fault

@[simp]
theorem settle_pure (a : α) : settle (pure a : Draft α) = pure a :=
  rfl

@[simp]
theorem settle_bind (d : Draft β) (f : β → Draft α) : settle (d >>= f) = settle d >>= fun b => settle (f b) := by
  funext s
  rw [Transaction.bind_eq]
  have hbind : (d >>= f) s = d s >>= fun r => f r.1 r.2 := rfl
  unfold settle
  rw [hbind]
  cases d s <;> rfl

@[simp]
theorem settle_get : settle (get : Draft Store) = get :=
  rfl

@[simp]
theorem settle_modify (f : Store → Store) : settle (modify f : Draft PUnit) = modify f :=
  rfl

@[simp]
theorem settle_look (f : Store → Except Fault α) : settle (look f) = Transaction.reading f := by
  funext s
  rw [Transaction.reading_eq]
  unfold settle look
  cases f s <;> rfl

@[simp]
theorem settle_lift (x : Except Fault α) : settle (liftM x : Draft α) = liftM x := by
  funext s
  rw [Transaction.lift_eq]
  cases x <;> rfl

@[simp]
theorem settle_write (t : Transaction α) : settle (write t) = t := by
  funext s
  unfold settle write
  cases t s <;> rfl

@[simp]
theorem settle_amid (changes : Transaction β) (x : Except Fault α) : settle (amid changes x) = liftM x := by
  funext s
  rw [Transaction.lift_eq]
  cases x <;> rfl

@[simp]
theorem settle_ite {c : Prop} [Decidable c] (d d' : Draft α) :
    settle (if c then d else d') = if c then settle d else settle d' := by
  split <;> rfl

theorem settle_forIn (xs : List β) (f : β → Draft α) :
    settle (forIn xs PUnit.unit fun x _ => f x >>= fun _ => pure (.yield PUnit.unit)) =
      forIn xs PUnit.unit fun x _ => settle (f x) >>= fun _ => pure (.yield PUnit.unit) := by
  induction xs with
  | nil => rfl
  | cons x xs ih => simp only [List.forIn_cons, settle_bind, bind_assoc, pure_bind, ih]

end Draft

theorem Operation.settle_eq {α : Type} (d : Draft α) : settle d = commit d.settle := by
  funext s
  rw [commit_eq]
  unfold settle Session.run Draft.settle
  cases h : d s.store <;> simp [StateT.run, Session.opened, Session.closed, h]

/-! ## Configuration -/

namespace Configuration

open Transaction

variable {a : Author}

def readCriterion (a : Author) (stage : Stage) (data : Value) (s : Store) : Except Fault Criterion := do
  let fields ← data.members
  let kind ← requireKind (Fields.getD fields "kind" .null)
  let name ← requireName fields
  let rule ← storedRule kind (Fields.getD fields "rule" .null)
  let position : Int := (s.criteriaOf stage.id).length
  let sortOrder ← (Fields.getD fields "sort_order" (.int position)).toInteger
  checkColumns name (description fields) rule
  Column.checkInt sortOrder
  return {
    id := Store.nextId (s.criteria.map (·.id))
    stage := stage.id
    name
    description := some (description fields)
    kind := kind.name
    mandatory := isSet fields "mandatory" true
    rule
    sortOrder := .int sortOrder
    isActive := isSet fields "is_active" true
    createdAt := some a.now
    updatedAt := some a.now }

def addCriterion (a : Author) (stage : Stage) (data : Value) : Transaction Criterion := do
  let c ← reading (readCriterion a stage data)
  Transaction.addCriterion c
  recordCreation a .criterion c.id stage.pipeline
    [("name", .text c.name), ("kind", .text c.kind), ("stage_id", .int stage.id)]
  return c

theorem readCriterion_eq (a : Author) (stage : Stage) (data : Value) (s : Store) :
    readCriterion a stage data s = criterionOf a stage data s >>= fun c => writable c := by
  have hnumber (n : Int) : Column.number (.int n) = Column.checkInt n >>= fun _ => .ok (.int n) := rfl
  unfold readCriterion criterionOf writable
  simp only [bind_assoc, pure_bind, hnumber, Option.getD_some]
  rfl

theorem settle_draftCriterion (a : Author) (stage : Stage) (data : Value) :
    (draftCriterion a stage data).settle = addCriterion a stage data := by
  have hread : reading (readCriterion a stage data) =
      reading (criterionOf a stage data) >>= fun c => (liftM (writable c) : Transaction Criterion) := by
    rw [funext (readCriterion_eq a stage data)]
    exact reading_of_bind _ _
  unfold draftCriterion addCriterion
  rw [hread]
  simp only [Draft.settle_bind, Draft.settle_look, Draft.settle_write, bind_assoc]

def readStage (pipeline : Int) (order : Value) (fields : Fields) (s : Store) : Except Fault Stage := do
  let limit := Fields.getD fields "wip_limit" .null
  checkStageValues "stage" (deadlineOf fields) limit
  let name ← requireName fields
  Column.checkText name
  return {
    id := Store.nextId (s.stages.map (·.id))
    pipeline
    name
    order := ← Column.number order
    deadline := ← Column.number (deadlineOf fields)
    entryCriteria := ← Column.text (Fields.getD fields "entry_criteria" .null)
    exitCriteria := ← Column.text (Fields.getD fields "exit_criteria" .null)
    isTerminal := isSet fields "is_terminal" false
    limit := ← Column.number limit }

def addStageAfter (a : Author) (pipeline : Int) (orders : List Value) (data : Value) :
    Transaction (Stage × Value) := do
  let fields ← data.members
  let order ← requireOrder fields (← nextOrder orders)
  let stage ← reading (readStage pipeline order fields)
  Transaction.addStage stage
  recordCreation a .stage stage.id pipeline
    [("name", .text stage.name), ("order", order), ("sla_deadline_days", deadlineOf fields)]
  for criterion in ← (Fields.getD fields "criteria" .null).items do
    let _ ← addCriterion a stage criterion
  return (stage, order)

def addStage (a : Author) (pipeline : Pipeline) (data : Value) : Transaction Stage := do
  let orders := ((← get).stagesOf pipeline.id).map (·.order)
  return (← addStageAfter a pipeline.id orders data).1

def addStages (a : Author) (pipeline : Int) (added : List (Stage × Value)) :
    List Value → Transaction (List (Stage × Value))
  | [] => pure added
  | data :: rest => do
    let next ← addStageAfter a pipeline (added.map (·.2)) data
    addStages a pipeline (added ++ [next]) rest

theorem settle_draftStageAfter (a : Author) (pipeline : Int) (orders : List Value) (data : Value) :
    (draftStageAfter a pipeline orders data).settle = addStageAfter a pipeline orders data := by
  have hread (order : Value) (fields : Fields) : reading (readStage pipeline order fields) = (do
      checkStageValues "stage" (deadlineOf fields) (limitOf fields)
      let name ← requireName fields
      reading (stageOf pipeline order fields name)) := by
    have hall : reading (readStage pipeline order fields) = reading fun s =>
        checkStageValues "stage" (deadlineOf fields) (limitOf fields) >>= fun _ =>
          requireName fields >>= fun name => stageOf pipeline order fields name s :=
      rfl
    rw [hall, reading_of_lift]
    simp only [reading_of_lift]
  unfold draftStageAfter addStageAfter
  simp only [Draft.settle_bind, Draft.settle_lift, Draft.settle_write, Draft.settle_forIn, Draft.settle_pure,
    settle_draftCriterion, hread, bind_assoc, pure_bind]

theorem settle_draftStage (a : Author) (pipeline : Pipeline) (data : Value) :
    (draftStage a pipeline data).settle = addStage a pipeline data := by
  unfold draftStage addStage
  simp only [Draft.settle_bind, Draft.settle_get, Draft.settle_pure, settle_draftStageAfter]

theorem settle_draftStages (a : Author) (pipeline : Int) (added : List (Stage × Value)) (datas : List Value) :
    (draftStages a pipeline added datas).settle = addStages a pipeline added datas := by
  induction datas generalizing added with
  | nil => rfl
  | cons data rest ih => simp only [draftStages, addStages, Draft.settle_bind, settle_draftStageAfter, ih]

def readPipeline (a : Author) (fields : Fields) (s : Store) : Except Fault Pipeline := do
  let name ← requireName fields
  checkTexts name (description fields)
  return {
    id := Store.nextId (s.pipelines.map (·.id))
    name
    description := some (description fields)
    isActive := isSet fields "is_active" true
    isPrimary := isSet fields "is_primary" false
    allowJumps := isSet fields "allow_stage_jumps" false
    allowRegression := isSet fields "allow_regression" false
    createdAt := some a.now
    updatedAt := some a.now }

def createPipeline (a : Author) (data : Value) : Transaction Pipeline := do
  let fields ← data.members
  let p ← reading (readPipeline a fields)
  addPipeline p
  let added ← addStages a p.id [] (← (Fields.getD fields "stages" .null).items)
  if !added.isEmpty then Pipeline.validateShape (.int p.id) (shapesOf added)
  recordCreation a .pipeline p.id p.id [("name", .text p.name), ("stages", .int added.length)]
  return p

theorem settle_draftPipeline (a : Author) (data : Value) :
    (draftPipeline a data).settle = createPipeline a data := by
  have hread (fields : Fields) : reading (readPipeline a fields) = (do
      let name ← requireName fields
      reading (pipelineOf a fields name)) :=
    reading_of_lift (requireName fields) (pipelineOf a fields)
  unfold draftPipeline createPipeline
  simp only [Draft.settle_bind, Draft.settle_lift, Draft.settle_write, Draft.settle_pure, Draft.settle_ite,
    settle_draftStages, hread, bind_assoc, pure_bind]

def readUpdate (c : Criterion) (fields : Fields) : Except Fault Criterion := do
  let kind ← requireKind (Fields.getD fields "kind" (.text c.kind))
  let rule ← storedRule kind (Fields.getD fields "rule" c.rule)
  let name ← if Fields.has fields "name" then requireName fields else pure c.name
  let sortOrder ←
    match fields.get? "sort_order" with
    | some order => order.toInteger.map .int
    | none => pure c.sortOrder
  let description := if Fields.has fields "description" then some (description fields) else c.description
  checkColumns name (description.getD "") rule
  return { c with
    name
    description
    kind := kind.name
    mandatory := isSet fields "mandatory" c.mandatory
    rule
    sortOrder := ← Column.number sortOrder
    isActive := isSet fields "is_active" c.isActive }

def updateCriterion (a : Author) (c : Criterion) (data : Value) (shared : Bool) : Transaction Criterion := do
  let fields ← data.members
  let updated ← readUpdate c fields
  let ruleChanged := ruleChanges (Fields.has fields "rule") shared c.rule updated.rule
  let changes := changesOf ruleChanged c updated
  let stored := { updated with
    rule := if ruleChanged then updated.rule else c.rule
    updatedAt := if changes.isEmpty then c.updatedAt else some a.now }
  putCriterion stored
  let pipeline ← reading fun s => (Store.follow (s.stage? c.stage)).map (·.pipeline)
  record ⟨.criterion, c.id, none, some pipeline, .update, a.name, .document (.object changes)⟩ a.now
  return stored

/-- Each of the columns in its turn, as it is asked for. -/
theorem readUpdate_eq (c : Criterion) (fields : Fields) : readUpdate c fields = (do
    let kind ← requireKind (fields.getD "kind" (.text c.kind))
    let rule ← storedRule kind (fields.getD "rule" c.rule)
    let name ← askedName c fields
    let place ← askedPlace c fields
    checkColumns name ((askedDescription c fields).getD "") rule
    let place ← Column.number place
    return { c with
      name
      description := askedDescription c fields
      kind := kind.name
      mandatory := isSet fields "mandatory" c.mandatory
      rule
      sortOrder := place
      isActive := isSet fields "is_active" c.isActive }) := by
  unfold readUpdate askedName askedPlace askedDescription
  congr
  funext kind
  congr
  funext rule
  cases fields.has "name" <;> cases fields.get? "sort_order" <;> rfl

theorem settle_draftUpdate (a : Author) (c : Criterion) (data : Value) (shared : Bool) :
    (draftUpdate a c data shared).settle = updateCriterion a c data shared := by
  unfold draftUpdate updateCriterion writeUpdate writable
  simp only [Draft.settle_bind, Draft.settle_lift, Draft.settle_look, Draft.settle_write, Draft.settle_amid,
    Draft.settle_pure, readUpdate_eq, lift_of_bind, bind_assoc, pure_bind]

end Configuration

namespace Flagging

open Transaction Configuration

def setFlag (a : Author) (lead criterion : Value) (flag : Flag) (value : Bool) (notes : Value) :
    Transaction FlagRow := do
  let l ← reading (·.lead lead)
  let c ← reading (requireSettled flag criterion)
  let old ← reading (row? lead criterion)
  let base := old.getD (blankRow l.id c.id (← get))
  let validatedBy ← Column.text a.name
  let notes ← Column.renew base.notes notes
  let new := flag.set value { base with validatedBy, validatedAt := some a.now, notes }
  saveRow old.isSome new
  let stage ← reading fun s => Store.follow (s.stage? c.stage)
  record ⟨.flags, new.id, some l.id, some stage.pipeline, flag.action, a.name,
    .document (.object [(flag.name, Change.pair (.bool (flag.of base)) (.bool value)),
      ("criterion_id", criterion)])⟩ a.now
  return new

theorem settle_draftFlag (a : Author) (lead criterion : Value) (flag : Flag) (value : Bool) (notes : Value) :
    (draftFlag a lead criterion flag value notes).settle = setFlag a lead criterion flag value notes := by
  unfold draftFlag setFlag
  simp only [Draft.settle_bind, Draft.settle_look, Draft.settle_write, Draft.settle_get, Draft.settle_pure, bind_assoc,
    pure_bind]

end Flagging

/-! ## Operations -/

namespace Administration

open Operation StageGate.Configuration

theorem createPipeline_eq (a : Author) (data : Value) :
    createPipeline a data = commit (Configuration.createPipeline a data) := by
  unfold createPipeline
  rw [settle_eq, settle_draftPipeline]

theorem addStage_eq (a : Author) (pipeline data : Value) : addStage a pipeline data = (do
    let p ← reading (·.pipeline pipeline)
    commit (Configuration.addStage a p data)) := by
  unfold addStage
  simp only [settle_eq, settle_draftStage]

theorem addCriterion_eq (a : Author) (stage data : Value) : addCriterion a stage data = (do
    let target ← reading (·.stage stage)
    let c ← commit (Configuration.addCriterion a target data)
    forget target.id
    return c) := by
  unfold addCriterion
  simp only [settle_eq, settle_draftCriterion]

theorem updateCriterion_eq (a : Author) (criterion data : Value) (shared : Bool) :
    updateCriterion a criterion data shared = (do
      let c ← reading (·.criterion criterion)
      let updated ← commit (Configuration.updateCriterion a c data shared)
      forget c.stage
      return updated) := by
  unfold updateCriterion
  simp only [settle_eq, settle_draftUpdate]

theorem setFlag_eq (a : Author) (lead criterion : Value) (flag : Flagging.Flag) (value : Bool) (notes : Value) :
    setFlag a lead criterion flag value notes = commit (Flagging.setFlag a lead criterion flag value notes) := by
  unfold setFlag
  rw [settle_eq, Flagging.settle_draftFlag]

end Administration

end StageGate
