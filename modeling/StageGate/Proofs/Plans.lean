import StageGate.Proofs.Transactions

/-!
This module contains moves and archivings as plans: what they answer and what they write are read off the store
before anything is written, and what is written is one entry and one row of the audit.
-/

namespace StageGate

/-- What an operation writes: the entry as it becomes, and the note that is signed for it. -/
structure Written where
  entry : Entry
  note : Transaction.Note
  actor : String
  time : Instant

def Written.row (w : Written) (s : Store) : AuditRow :=
  w.note.row w.actor w.time s

def Written.onto (w : Written) (s : Store) : Store :=
  (s.putEntry w.entry).addAudit (w.row s)

/-- The answer of an operation, and what it writes if it writes anything. -/
structure Plan (α : Type) where
  answer : α
  written? : Option Written

namespace Plan

variable {α β : Type}

def onto (o : Plan α) (s : Store) : Store :=
  o.written?.elim s (·.onto s)

def map (f : α → β) (o : Plan α) : Plan β :=
  ⟨f o.answer, o.written?⟩

/-- What a transaction gives that does as it is planned. -/
def outcome (p : Except Fault (Plan α)) (s : Store) : Except Fault (α × Store) := do
  let o ← p
  return (o.answer, o.onto s)

theorem outcome_bind (x : Except Fault β) (f : β → Except Fault (Plan α)) (s : Store) :
    outcome (x >>= f) s = x >>= fun b => outcome (f b) s := by
  cases x <;> rfl

theorem outcome_pure (o : Plan α) (s : Store) : outcome (pure o) s = .ok (o.answer, o.onto s) :=
  rfl

end Plan

/-! ## Transactions step by step -/

namespace Transaction

section

variable {α β : Type} {s : Store}

theorem reading_shown (g : Store → Except Fault α) : reading g s = g s >>= fun a => .ok (a, s) := by
  rw [reading_eq]
  cases g s <;> rfl

theorem lift_bind (x : Except Fault β) (f : β → Transaction α) :
    ((liftM x : Transaction β) >>= f) s = x >>= (f · s) := by
  cases x <;> rfl

theorem record_bind (n : Note) (time : Instant) (f : Unit → Transaction α) :
    (record n time >>= f) s = signature n.actor >>= fun name => f () (s.addAudit (n.row name time s)) := by
  cases h : signature n.actor with
  | error e => exact bind_of_error (record_of_error h) f
  | ok name => exact bind_of_ok ((record_eq_ok (u := ())).mpr ⟨name, h, rfl⟩) f

end

end Transaction

open Transaction Operation

/-! ## Archiving -/

namespace Closing

def archivePlan (c : Call) (entry reason : Value) (s : Store) :
    Except Fault (Plan EntryView) := do
  let e ← s.entry entry
  c.wait.check
  requireOpen e
  let stage ← Store.follow (s.stage? e.stage)
  let kept ← keptReason reason
  let closed := e.archive kept c.now
  let actor ← signature c.actor
  let view ← s.view c.window c.now closed
  return ⟨view, some ⟨closed, ⟨.entry, e.id, some e.lead, some e.pipeline, .archive, c.actor,
    .archived stage.ref reason⟩, actor, c.now⟩⟩

theorem closing_eq (c : Call) (entry reason : Value) (s : Store) :
    closing c entry reason s = Plan.outcome (archivePlan c entry reason s) s := by
  have hadmits : ∀ e : Entry, ∀ kept, s.admits (e.archive kept c.now) := by
    intro e kept
    simp [Store.admits, Entry.isActive, Entry.archive]
  unfold closing archivePlan archiveRecorded close
  simp only [bind_assoc, lift_bind, reading_bind, putEntry_bind (hadmits _ _), record_bind, pure_bind, reading_shown,
    Plan.outcome_bind, Plan.outcome_pure]
  rfl

end Closing

/-! ## Moving -/

namespace Advancement

variable {c : Call} {s : Store} {e : Entry} {current target : Stage} {verdict : Verdict} {sla : Health}
  {note : Value}

def movePlan (c : Call) (e : Entry) (current target : Stage) (verdict : Verdict) (sla : Health) (note : Value)
    (s : Store) : Except Fault (Plan Move) := do
  let new ← placed c c.now e target note s
  let isForward ← current.order.lt target.order
  let outcome : MoveOutcome :=
    if !new.isActive then .completed else if isForward then .advanced else .regressed
  let actor ← signature c.actor
  let view ← s.view c.window c.now new
  return ⟨⟨outcome, view, note, verdict, sla, current.id, target.id⟩,
    some ⟨new, ⟨.entry, e.id, some e.lead, some e.pipeline, outcome.action, c.actor,
      .moved current.ref target.ref new.status sla (verdict.warnings.map (·.check.name))⟩, actor, c.now⟩⟩

theorem admits_of_placed {new : Entry} (hadmits : s.admits e) (hactive : e.isActive)
    (h : placed c c.now e target note s = .ok new) : s.admits new :=
  have hplaced := isPlaced_of_placed h
  Store.admits_of_same hadmits hplaced.id hplaced.lead hplaced.pipeline fun _ => hactive

theorem move_eq (hadmits : s.admits e) (hactive : e.isActive) :
    move c e current target verdict sla note s =
      Plan.outcome (movePlan c e current target verdict sla note s) s := by
  rw [move_universal]
  unfold movePlan
  rw [reading_bind, Plan.outcome_bind]
  cases hplaced : placed c c.now e target note s with
  | error f => rfl
  | ok new =>
    simp only [ok_bind, lift_bind, putEntry_bind (admits_of_placed hadmits hactive hplaced), record_bind, reading_bind,
      Plan.outcome_bind, Plan.outcome_pure]
    rfl

theorem move_of_placed {new : Entry} {isForward : Bool} {actor : String} {view : EntryView} (hadmits : s.admits e)
    (hactive : e.isActive) (hplaced : placed c c.now e target note s = .ok new)
    (hlt : current.order.lt target.order = .ok isForward) (hactor : signature c.actor = .ok actor)
    (hview : s.view c.window c.now new = .ok view) : move c e current target verdict sla note s =
      let outcome : MoveOutcome :=
        if !new.isActive then .completed else if isForward then .advanced else .regressed
      .ok (⟨outcome, view, note, verdict, sla, current.id, target.id⟩,
        Written.onto ⟨new, ⟨.entry, e.id, some e.lead, some e.pipeline, outcome.action, c.actor,
          .moved current.ref target.ref new.status sla (verdict.warnings.map (·.check.name))⟩, actor, c.now⟩ s) := by
  rw [move_eq hadmits hactive]
  simp only [movePlan, hplaced, hlt, hactor, hview, ok_bind]
  rfl

def heldPlan (c : Call) (e : Entry) (target : Value) (k : Knowledge) (note : Value) (s : Store) :
    Except Fault (Plan Move) := do
  if !e.isActive then throw (.refused (.notActive (.int e.id) (.text e.status.name)))
  let stage ← resolveTarget e target s
  let current ← Store.follow (s.stage? e.stage)
  let (verdict, sla) ← judge c e k s
  if verdict.canAdvance then
    movePlan c e current stage verdict sla note s
  else
    let view ← s.view c.window c.now e
    return ⟨⟨.criteriaNotMet, view, .null, verdict, sla, current.id, stage.id⟩, none⟩

/--
The rest of the wait is looked at before the lock of the entry is waited for, and used only if the stage that is
to be entered has a lock.
-/
def advancePlan (c : Call) (entry target : Value) (k : Knowledge) (note : Value) (s : Store) :
    Except Fault (Plan Move) := do
  let e ← s.entry entry
  let left ← c.wait.left
  c.wait.check
  match ← cappedStage? target s with
  | none => heldPlan c e target k note s
  | some _ =>
    left.check
    heldPlan c e target k note s

theorem advancingHeld_eq (hs : s.IsSound) (he : e ∈ s.entries) (target : Value) (k : Knowledge) :
    advancingHeld c e target k note s = Plan.outcome (heldPlan c e target k note s) s := by
  unfold advancingHeld heldPlan
  cases hactive : e.isActive with
  | false => rfl
  | true =>
  simp only [demand, ↓reduceIte, pure_bind, reading_bind, Plan.outcome_bind, Bool.not_true, Bool.false_eq_true]
  apply bind_congr
  intro stage
  apply bind_congr
  intro current
  apply bind_congr
  rintro ⟨verdict, sla⟩
  dsimp only
  split
  . exact move_eq (hs.admits he rfl rfl rfl fun h => h) hactive
  . rw [reading_bind, Plan.outcome_bind]
    rfl

theorem moving_eq (hs : s.IsSound) (entry target : Value) (k : Knowledge) :
    moving c entry target k note s = Plan.outcome (advancePlan c entry target k note s) s := by
  unfold moving advancePlan
  rw [reading_bind, Plan.outcome_bind]
  cases hentry : s.entry entry with
  | error f => rfl
  | ok e =>
  have hheld : advancingHeld c e target k note s = Plan.outcome (heldPlan c e target k note s) s :=
    advancingHeld_eq hs (Store.mem_of_entry hentry) target k
  simp only [ok_bind, reading_bind, Plan.outcome_bind]
  apply bind_congr
  intro left
  apply bind_congr
  intro _
  apply bind_congr
  intro stage?
  cases stage? with
  | none => exact hheld
  | some stage =>
    dsimp only
    rw [reading_bind, hheld, Plan.outcome_bind]

end Advancement

end StageGate
