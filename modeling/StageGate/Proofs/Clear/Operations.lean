import StageGate.Command
import StageGate.Proofs.Clear.Store
import StageGate.Proofs.Readings
import StageGate.Proofs.Waiting

/-!
This module contains that the taking of locks is clear, and that so is what operations read before they
write.
-/

namespace StageGate

/-! ## Locks -/

@[simp]
theorem Wait.clear_checkLength (seconds : Binary64) : Clear (checkLength seconds) := by
  unfold checkLength
  split
  . simp
  . simp

@[simp]
theorem Wait.clear_check (w : Wait) : Clear w.check := by
  unfold check
  split
  . simp
  . simp only [ends_bind, clear_of_plain, Value.plain_lt, true_and]
    intros
    split
    . simp
    . split <;> simp

@[simp]
theorem Wait.clear_left (w : Wait) : Clear w.left := by
  unfold left
  split <;> simp

@[simp]
theorem Waiter.isClear_fault (w : Waiter) (wait : Wait) : (w.fault wait).IsClear := by
  unfold fault
  split <;> simp

namespace LockTable

variable (table : LockTable) (owner : Owner) (wait : Wait)

theorem clear_take (key : LockKey) (waiter : Waiter) : Clear (table.take owner key waiter wait) := by
  unfold take
  simp only [ends_bind, ends_ite, ends_throw, Wait.clear_check, true_and]
  constructor
  . simp
  . intros
    split <;> simp

theorem clear_takeAll (keys : List LockKey) : Clear (table.takeAll owner keys wait) := by
  unfold takeAll
  simp only [ends_bind, ends_ite, ends_pure, ends_throw, Wait.clear_check, Wait.clear_left, true_and,
    implies_true]
  intros
  constructor
  . simp
  . intros
    split <;> simp

@[simp]
theorem clear_enter (key : LockKey) (waiter : Waiter) : Clear (table.enter owner key waiter wait).1 := by
  rw [enter_eq]
  exact ends_orSame.mpr (clear_take table owner wait key waiter)

@[simp]
theorem clear_enterAll (keys : List LockKey) : Clear (table.enterAll owner keys wait).1 := by
  rw [enterAll_eq]
  exact ends_orSame.mpr (clear_takeAll table owner wait keys)

end LockTable

namespace Registry

variable (r : Registry) (owner : Owner) (wait : Wait)

@[simp]
theorem fst_note (keys : List LockKey) (entered : Except Fault Unit × LockTable) :
    (r.note owner keys entered).1 = entered.1 := by
  rcases entered with ⟨_ | _, table⟩ <;> rfl

@[simp]
theorem clear_tryHold (key : LockKey) (waiter : Waiter) : Clear (r.tryHold owner key waiter wait).1 := by
  simp [tryHold]

@[simp]
theorem clear_tryHoldMany (keys : List LockKey) : Clear (r.tryHoldMany owner keys wait).1 := by
  simp [tryHoldMany]

end Registry

/-! ## Readings of operations -/

namespace Advancement

@[simp]
theorem plain_moveRefusal? (p : Pipeline) (current target : Stage) :
    Plain (moveRefusal? p current target) := by
  simp [moveRefusal?]

@[simp]
theorem clear_resolveTarget (e : Entry) (target : Value) (s : Store) :
    Clear (resolveTarget e target s) := by
  unfold resolveTarget
  simp only [ends_bind, clear_of_plain, Store.plain_follow, Store.plain_seek, true_and]
  intros
  split
  . simp
  . simp only [ends_bind, clear_of_plain, plain_moveRefusal?, true_and]
    intros
    split
    . simp
    . split <;> simp

@[simp]
theorem plain_cappedStage? (target : Value) (s : Store) : Plain (cappedStage? target s) := by
  simp [cappedStage?]

@[simp]
theorem plain_contextOf (metrics : Fields) (given : Value) : Plain (contextOf metrics given) := by
  simp [contextOf]

@[simp]
theorem plain_snapshotOf (e : Entry) (given : Value) (s : Store) : Plain (snapshotOf e given s) := by
  simp [snapshotOf, Lead.snapshot]

@[simp]
theorem plain_placed (c : Call) (e : Entry) (target : Stage) (note : Value) (s : Store) :
    Plain (placed c c.now e target note s) := by
  simp [placed]

end Advancement

namespace Enrollment

@[simp]
theorem clear_enrollable (id : Value) (s : Store) : Clear (enrollable id s) := by
  simp [enrollable]

@[simp]
theorem clear_requireVacant (leadName pipelineName : Value) (lead pipeline : Int) (s : Store) :
    Clear (requireVacant leadName pipelineName lead pipeline s) := by
  unfold requireVacant
  split <;> simp

@[simp]
theorem clear_newEntry (c : Call) (name : Value) (lead pipeline : Int) (note : Value)
    (source : Option Int) (s : Store) : Clear (newEntry c name lead pipeline note source s) := by
  simp [newEntry]

@[simp]
theorem plain_distinct (seen vs : List Value) : Plain (distinct seen vs) := by
  induction vs generalizing seen with
  | nil => simp [distinct]
  | cons v vs ih => simp [distinct, ih]

@[simp]
theorem clear_candidates (names : List Value) (s : Store) : Clear (candidates names s) := by
  unfold candidates
  simp only [ends_bind]
  refine ⟨by simp, fun _ _ => ⟨?_, ?_⟩⟩
  . apply ends_mapM
    simp
  . intros
    apply ends_mapM
    intros
    split <;> simp

end Enrollment

namespace Closing

@[simp]
theorem clear_requireOpen (e : Entry) : Clear (requireOpen e) := by
  simp [requireOpen]

@[simp]
theorem plain_keptReason (reason : Value) : Plain (keptReason reason) := by
  unfold keptReason
  simp only [ends_ite, ends_pure, implies_true, true_and]
  intro _
  split <;> simp

end Closing

namespace HealthSummary

@[simp]
theorem clear_read (window : Value) (now : Stamp) (s : Store) (e : Entry) :
    Clear (read window now s e) := by
  simp [read]

@[simp]
theorem clear_readActive (window : Value) (now : Stamp) (pipeline : Int) (s : Store) :
    Clear (readActive window now pipeline s) := by
  apply ends_mapM
  simp

end HealthSummary

namespace Flagging

@[simp]
theorem clear_requireSettled (flag : Flag) (criterion : Value) (s : Store) :
    Clear (requireSettled flag criterion s) := by
  simp [requireSettled]

@[simp]
theorem clear_row? (lead criterion : Value) (s : Store) : Clear (row? lead criterion s) := by
  simp [row?]

end Flagging

namespace Command

@[simp]
theorem clear_activeViews (c : ZonedCall) (pipeline : Value) (s : Store) :
    Clear (activeViews c pipeline s) := by
  unfold activeViews
  simp only [ends_bind, clear_of_plain, Store.plain_rowId?, true_and]
  intros
  split
  . apply ends_mapM
    simp
  . simp

end Command

@[simp]
theorem Shown.clear_rows (s : Store) (shown : Shown) : Clear (rows s shown) := by
  unfold rows
  split
  . simp
  . simp
  . simp
  . simp
  . apply ends_mapM
    simp

end StageGate
