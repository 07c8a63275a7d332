import StageGate.Proofs.Clear.Values
import StageGate.Proofs.Drafts
import StageGate.Store.Direct

/-!
This module contains that what is read from the store is clear, and so are the rows that documents describe
before they are written.
-/

namespace StageGate

/-! ## Configuration documents -/

@[simp]
theorem plain_checkStageValues (path : String) (deadline limit : Value) :
    Plain (checkStageValues path deadline limit) := by
  simp [checkStageValues]

namespace Pipeline

@[simp]
theorem plain_areDistinct (vs : List Value) : Plain (areDistinct vs) := by
  induction vs with
  | nil => simp [areDistinct]
  | cons v vs ih => simp [areDistinct, ih]

@[simp]
theorem plain_isContiguous (vs : List Value) : Plain (isContiguous vs) := by
  unfold isContiguous
  split
  . simp
  . split <;> simp

@[simp]
theorem plain_validateShape (label : Value) (stages : List StageShape) :
    Plain (validateShape label stages) := by
  have hc : Plain (forM stages StageShape.check) := by
    apply ends_forM
    simp [StageShape.check]
  simp [validateShape, validateShape.refuse, hc]

end Pipeline

namespace Configuration

@[simp]
theorem clear_requireName (fields : Fields) : Clear (requireName fields) := by
  unfold requireName
  split <;> simp

@[simp]
theorem clear_requireKind (kind : Value) : Clear (requireKind kind) := by
  unfold requireKind
  split <;> simp

@[simp]
theorem clear_storedRule (kind : Kind) (rule : Value) : Clear (storedRule kind rule) := by
  simp [storedRule]

@[simp]
theorem clear_checkTexts (name description : String) : Clear (checkTexts name description) := by
  simp [checkTexts]

@[simp]
theorem clear_checkColumns (name description : String) (rule : Value) : Clear (checkColumns name description rule) := by
  simp [checkColumns]

end Configuration

/-! ## The store -/

namespace Store

@[simp]
theorem plain_follow {α : Type} (row : Option α) : Plain (follow row) := by
  cases row <;> simp [follow]

@[simp]
theorem plain_rowId? (v : Value) : Plain (rowId? v) := by
  unfold rowId?
  simp only [ends_bind, Column.plain_number, true_and]
  intros
  split <;> simp

@[simp]
theorem plain_identity (v : Value) : Plain (identity v) := by
  unfold identity
  split <;> simp [identity.usable]

@[simp]
theorem plain_seek {α : Type} (row? : Int → Option α) (id : Value) : Plain (seek row? id) := by
  simp [seek]

@[simp]
theorem clear_require {α : Type} (resource : String) (row? : Int → Option α) (id : Value) :
    Clear (require resource row? id) := by
  unfold require
  simp only [ends_bind, clear_of_plain, plain_seek, true_and]
  intros
  split <;> simp

variable (s : Store)

@[simp]
theorem plain_instant (t : Stamp) : Plain t.instant := by
  unfold Stamp.instant
  split <;> simp

@[simp]
theorem clear_lead (id : Value) : Clear (s.lead id) := by
  simp [lead]

@[simp]
theorem clear_pipeline (id : Value) : Clear (s.pipeline id) := by
  simp [pipeline]

@[simp]
theorem clear_stage (id : Value) : Clear (s.stage id) := by
  simp [stage]

@[simp]
theorem clear_criterion (id : Value) : Clear (s.criterion id) := by
  simp [criterion]

@[simp]
theorem clear_entry (id : Value) : Clear (s.entry id) := by
  simp [entry]

@[simp]
theorem plain_validate (p : Pipeline) : Plain (s.validate p) := by
  simp [validate]

@[simp]
theorem plain_healthOf (window : Value) (now : Instant) (e : Entry) : Plain (s.healthOf window now e) := by
  simp [healthOf]

@[simp]
theorem plain_view (window : Value) (now : Stamp) (e : Entry) : Plain (s.view window now e) := by
  simp [view, healthAt]

@[simp]
theorem plain_checkVariables (count : Nat) : Plain (checkVariables count) := by
  simp [checkVariables]

@[simp]
theorem plain_flagsOn (lead : Int) (checks : List Check) : Plain (s.flagsOn lead checks) := by
  simp [flagsOn]

@[simp]
theorem clear_statesFor (lead : Value) (criteria : List Value) : Clear (s.statesFor lead criteria) := by
  have hc : Clear (criteria.mapM rowId?) := by
    apply ends_mapM
    simp
  simp [statesFor, hc]

end Store

/-! ## Rows of the configuration that documents describe -/

namespace Configuration

@[simp]
theorem clear_readCriterion (a : Author) (stage : Stage) (data : Value) (s : Store) :
    Clear (readCriterion a stage data s) := by
  simp [readCriterion]

@[simp]
theorem clear_nextOrder (orders : List Value) : Clear (nextOrder orders) := by
  unfold nextOrder
  split <;> simp

@[simp]
theorem clear_requireOrder (fields : Fields) (next : Value) : Clear (requireOrder fields next) := by
  simp [requireOrder]

@[simp]
theorem clear_readStage (pipeline : Int) (order : Value) (fields : Fields) (s : Store) :
    Clear (readStage pipeline order fields s) := by
  simp [readStage]

@[simp]
theorem clear_readPipeline (a : Author) (fields : Fields) (s : Store) :
    Clear (readPipeline a fields s) := by
  simp [readPipeline]

@[simp]
theorem clear_readUpdate (c : Criterion) (fields : Fields) : Clear (readUpdate c fields) := by
  unfold readUpdate
  simp only [ends_bind, clear_requireKind, clear_storedRule, true_and]
  intros
  split <;> split <;> simp

end Configuration

@[simp]
theorem Transaction.clear_signature (actor : Value) : Clear (signature actor) := by
  unfold signature
  simp only [ends_bind, clear_of_plain, Column.plain_text, true_and]
  intro name _
  cases name with
  | some name => simp [signedBy]
  | none => simp [signedBy, Store.collision]

@[simp]
theorem Lead.plain_snapshotOf (name? : Value → Option String) (custom : Value) (core : Fields) :
    Plain (snapshotOf name? custom core) := by
  simp [snapshotOf]

theorem Change.clear_read (levels : Nat) (text : String) : Clear (read levels text) := by
  unfold read
  cases Json.readWithin levels (if text = "" then "\x7b\x7d" else text) with
  | ok v => simp
  | error e => cases e <;> simp

@[simp]
theorem AuditRow.clear_toValue (r : AuditRow) : Clear r.toValue := by
  have hc : Clear r.change.toValue := by
    cases r.change with
    | written text => apply Change.clear_read
    | _ => simp [Change.toValue]
  simp [toValue, hc]

/-! ## Leads that are written directly -/

namespace Direct

theorem clear_checkTimes (values : Fields) : Clear (checkTimes values) := by
  apply ends_forM
  rintro ⟨key, v⟩ _
  cases v <;> simp

theorem clear_prepare (kind : ColumnKind) (v : Value) : Clear (prepare kind v) := by
  unfold prepare
  split <;> simp

theorem clear_keep (kind : ColumnKind) (v : Value) : Clear (keep kind v) := by
  unfold keep
  split <;> simp

theorem clear_keepAll (table : Table) (values : Fields) : Clear (keepAll table values) := by
  unfold keepAll
  simp only [ends_bind]
  constructor
  . apply ends_forM
    rintro ⟨a, v⟩ _
    apply clear_prepare
  . intro _ _
    apply ends_mapM
    rintro ⟨a, v⟩ _
    simp [clear_keep]

theorem clear_givenId (kept : Fields) : Clear (givenId kept) := by
  unfold givenId
  split <;> simp [violated, Store.collision]

theorem clear_checkRequired (table : Table) (values : Fields) : Clear (checkRequired table values) := by
  apply ends_forM
  intro a _
  split
  . unfold violated
    rw [ends_error, Fault.isClear_violated]
    -- The two messages begin with different letters.
    intro h
    have := congrArg (·.toList.head?) h
    simp [Store.collision] at this
  . simp

theorem clear_checkUnique_lead (isFree : Bool) : Clear (checkUnique .lead ["id"] isFree) := by
  simp [checkUnique, violated, Store.collision, Table.name]

theorem clear_checkRow_lead (s : Store) (old : Option Int) (id : Int) (values row : Fields) :
    Clear (checkRow s .lead old id values row) := by
  -- Leads have no columns that are unique together, apart from their ids.
  unfold checkRow
  simp only [Table.key?, ends_bind, clear_checkRequired, clear_checkUnique_lead, true_and]
  intros
  simp [violated, Store.collision]

end Direct

end StageGate
