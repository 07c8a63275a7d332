import StageGate.Proofs.Commands
import StageGate.Proofs.Loading
import StageGate.Proofs.Registry

/-!
This module contains that every operation, whether it answers or fails, leaves a cache of criteria behind which
holds what its sources compile to.
-/

namespace StageGate

open Operation

namespace Operation

section

variable {α β : Type} {I J : Service → Prop}

/-- An operation that leads from what `I` says to what `J` says, whether it answers or fails. -/
structure Turns (op : Operation α) (I J : Service → Prop) : Prop where
  after : ∀ s, I s → J (op s).2

theorem turns_bind {op : Operation β} {f : β → Operation α} {M : Service → Prop} (hM : ∀ s, M s → J s)
    (ho : Turns op I M) (hf : ∀ b, Turns (f b) M J) : Turns (op >>= f) I J := by
  constructor
  intro s hs
  have h := ho.after s hs
  rcases hop : op s with ⟨r, s'⟩
  rw [hop] at h
  cases r with
  | ok b =>
    rw [bind_of_ok hop]
    exact (hf b).after s' h
  | error e =>
    rw [bind_of_error hop]
    exact hM s' h

theorem turns_pure (a : α) : Turns (pure a) I I :=
  ⟨fun _ h => h⟩

theorem turns_map {op : Operation β} {f : β → α} (h : Turns op I J) : Turns (f <$> op) I J := by
  rw [← bind_pure_comp]
  exact turns_bind (fun _ h => h) h fun b => turns_pure (f b)

theorem turns_reading {f : Store → Except Fault α} : Turns (reading f) I I := by
  constructor
  intro s h
  rw [reading_eq]
  exact h

theorem turns_get : Turns get I I :=
  ⟨fun _ h => h⟩

theorem turns_reading_bind {g : Store → Except Fault β} {f : β → Operation α} (hI : ∀ s, I s → J s)
    (hf : ∀ b, Turns (f b) I J) : Turns (reading g >>= f) I J :=
  turns_bind hI turns_reading hf

theorem turns_holding {enter : LockTable → Except Fault Unit × LockTable} {release : LockTable → LockTable}
    {body : Operation α} (hI : ∀ s locks, I s → I { s with locks }) (hJ : ∀ s locks, J s → J { s with locks })
    (himp : ∀ s, I s → J s) (hb : Turns body I J) : Turns (holding enter release body) I J := by
  constructor
  intro s h
  unfold holding
  rcases enter s.locks.table with ⟨entered, table⟩
  cases entered with
  | error e => exact hJ s _ (himp s h)
  | ok _ => exact hJ _ _ (hb.after _ (hI s _ h))

theorem Turns.mono {op : Operation α} {I' J' : Service → Prop} (h : Turns op I J) (hI : ∀ s, I' s → I s)
    (hJ : ∀ s, J s → J' s) : Turns op I' J' :=
  ⟨fun s hs => hJ _ (h.after s (hI s hs))⟩

end

section

variable {α : Type}

theorem commit_cache (t : Transaction α) (s : Service) : (commit t s).2.cache = s.cache := by
  rw [commit_eq]
  cases t s.store <;> rfl

theorem turns_commit {t : Transaction α} : Turns (commit t) Service.IsFaithful Service.IsFaithful := by
  constructor
  intro s h
  unfold Service.IsFaithful
  rw [commit_cache]
  exact h

theorem turns_forget {stage : Int} : Turns (forget stage) Service.IsFaithful Service.IsFaithful :=
  ⟨fun _ h => h.drop stage⟩

theorem turns_loadChecks {stage : Int} : Turns (loadChecks stage) Service.IsTrusty Service.IsTrusty :=
  ⟨fun _ h => (loadChecks_of_isTrusty h stage).2⟩

theorem turns_held {enter : LockTable → Except Fault Unit × LockTable} {release : LockTable → LockTable}
    {body : Operation α} (h : Turns body Service.IsTrusty Service.IsFaithful) :
    Turns (holding enter release body) Service.IsTrusty Service.IsFaithful :=
  turns_holding (fun _ locks h => h.locked locks) (fun _ _ h => h) (fun _ => Service.IsTrusty.faithful) h

theorem turns_held_commit {enter : LockTable → Except Fault Unit × LockTable} {release : LockTable → LockTable}
    {t : Transaction α} :
    Turns (holding enter release (commit t)) Service.IsFaithful Service.IsFaithful :=
  turns_holding (fun _ _ h => h) (fun _ _ h => h) (fun _ h => h) turns_commit

end

end Operation

namespace Advancement

variable {c : Call} {e : Entry} {k : Knowledge}

theorem turns_requireActive {I : Service → Prop} : Turns (requireActive e) I I := by
  unfold requireActive
  split
  . exact turns_pure ()
  . exact ⟨fun _ h => h⟩

theorem turns_evaluateExit {I : Service → Prop} (hI : ∀ stage, Turns (loadChecks stage) I I) :
    Turns (evaluateExit c e k) I I := by
  unfold evaluateExit
  apply turns_bind (fun _ h => h) (hI e.stage)
  intro checks
  apply turns_reading

section

variable {I J : Service → Prop} (himp : ∀ s, I s → J s)

include himp

theorem turns_advanceHeld {target note : Value} (hload : ∀ stage, Turns (loadChecks stage) I I)
    (hmove : ∀ current stage verdict sla, Turns (commit (move c e current stage verdict sla note)) I J) :
    Turns (advanceHeld c e target k note) I J := by
  unfold advanceHeld
  apply turns_bind himp turns_requireActive
  intro _
  apply turns_reading_bind himp
  intro stage
  apply turns_reading_bind himp
  intro current
  apply turns_bind himp (turns_evaluateExit hload)
  rintro ⟨verdict, sla⟩
  dsimp only
  split
  . exact hmove current stage verdict sla
  . apply turns_reading_bind himp
    intro view
    exact (turns_pure _).mono himp fun _ h => h

theorem turns_advance {entry target note : Value}
    (hheld : ∀ key waiter wait (body : Operation Move), Turns body I J → Turns (holdingKey key waiter wait body) I J)
    (h : ∀ e, Turns (advanceHeld c e target k note) I J) : Turns (advance c entry target k note) I J := by
  unfold advance
  apply turns_reading_bind himp
  intro e
  apply turns_reading_bind himp
  intro left
  apply hheld
  apply turns_reading_bind himp
  intro capped
  cases capped with
  | none => exact h e
  | some stage => exact hheld _ _ _ _ (h e)

end

theorem turns_preview {entry : Value} {I : Service → Prop} (hI : ∀ stage, Turns (loadChecks stage) I I) :
    Turns (preview c entry k) I I := by
  unfold preview
  apply turns_reading_bind fun _ h => h
  intro e
  apply turns_bind (fun _ h => h) turns_requireActive
  intro _
  exact turns_map (turns_evaluateExit hI)

end Advancement

namespace Command

variable {c : Call}

section

variable {I : Service → Prop}

theorem turns_enroll {lead pipeline note : Value}
    (h : ∀ l p, Turns (holdingKey (.entry lead pipeline) (LockKey.entry lead pipeline).waiter c.wait
      (commit (Enrollment.refusingEntry lead pipeline (Enrollment.openRecorded c lead l p note false)))) I I) :
    Turns (Enrollment.enroll c lead pipeline note) I I := by
  unfold Enrollment.enroll
  apply turns_reading_bind fun _ h => h
  intro l
  apply turns_reading_bind fun _ h => h
  intro p
  apply turns_bind (fun _ h => h) (h l.id p.id)
  intro e
  exact turns_reading

theorem turns_enrollMany {leads pipeline : Value} {skipExisting : Bool} {note : Value}
    (h : ∀ keys p leads, Turns (holdingKeys keys c.wait (commit (Enrollment.openEach c pipeline p skipExisting note leads)))
      I I) : Turns (Enrollment.enrollMany c leads pipeline skipExisting note) I I := by
  unfold Enrollment.enrollMany
  apply turns_reading_bind fun _ h => h
  intro names
  apply turns_reading_bind fun _ h => h
  intro p
  split
  . exact turns_pure _
  . apply turns_reading_bind fun _ h => h
    intro leads
    apply turns_bind (fun _ h => h) (h _ p.id leads)
    rintro ⟨entries, skips⟩
    exact turns_reading_bind (fun _ h => h) fun _ => turns_pure _

theorem turns_archive {entry reason : Value}
    (h : ∀ key waiter e, Turns (holdingKey key waiter c.wait (commit (Closing.archiveRecorded c e reason))) I I) :
    Turns (Closing.archive c entry reason) I I := by
  unfold Closing.archive
  apply turns_reading_bind fun _ h => h
  intro e
  apply turns_bind (fun _ h => h) (h _ _ e)
  intro closed
  exact turns_reading

theorem turns_transfer {entry pipeline reason note : Value}
    (h : ∀ keys lead e p, Turns (holdingKeys keys c.wait
      (commit (Enrollment.refusingEntry lead pipeline (Closing.transferRecorded c e pipeline p reason note)))) I I) :
    Turns (Closing.transfer c entry pipeline reason note) I I := by
  unfold Closing.transfer
  apply turns_reading_bind fun _ h => h
  intro e
  apply turns_reading_bind fun _ h => h
  intro p
  apply turns_bind (fun _ h => h) (h _ _ e p.id)
  rintro ⟨closed, opened⟩
  exact turns_reading

end

section

variable {I : Service → Prop} (hI : ∀ s locks, I s → I { s with locks })

include hI

theorem turns_taking {take : Registry → Except Fault Unit × Registry} : Turns (taking take) I I :=
  ⟨fun s h => hI s _ h⟩

theorem turns_releasing {owner : Owner} : Turns (releasing owner) I I := by
  unfold releasing
  apply turns_bind (fun _ h => h) turns_get
  intro s
  split
  . exact turns_bind (fun _ h => h) ⟨fun s h => hI s _ h⟩ fun _ => turns_pure _
  . exact turns_pure _

end

section

variable {I J : Service → Prop} (himp : ∀ s, I s → J s)
  (hcommit : ∀ (α : Type) (t : Transaction α), Turns (commit t) J J)
  (hload : ∀ stage, Turns (loadChecks stage) I I) (hforget : ∀ stage, Turns (forget stage) J J)

include himp hcommit hload hforget

/-- The commands that are not about entries or locks commit, and load criteria or forget them. -/
theorem turns_of_quiet {k : Command} (hk : k.effect = .quiet) (hlocks : k.lockStep? = none) (env : Environment) :
    Turns (k.run env) I J := by
  have hweaken {op : Operation Value} (h : Turns op J J) : Turns op I J := h.mono himp fun _ h => h
  have hsettle {α : Type} (d : Draft α) : Turns (settle d) J J := by
    rw [settle_eq]
    exact hcommit α d.settle
  cases k with
  | enroll | enrollMany | advance | archive | transfer => cases hk
  | hold | holdMany | release => cases hlocks
  | loadCriteria stage =>
    apply turns_map
    apply turns_reading_bind himp
    intro target
    exact (hload target.id).mono (fun _ h => h) himp
  | preview caller entry knowledge =>
    exact turns_map ((Advancement.turns_preview hload).mono (fun _ h => h) himp)
  | createLead values => exact hweaken (hcommit _ _)
  | createPipeline actor data => exact hweaken (turns_bind (fun _ h => h) (hsettle _) fun _ => turns_map turns_get)
  | addStage actor pipeline data =>
    apply hweaken
    apply turns_bind (fun _ h => h) _ fun _ => turns_map turns_get
    exact turns_reading_bind (fun _ h => h) fun _ => hsettle _
  | addCriterion actor stage data =>
    apply hweaken
    apply turns_map
    apply turns_reading_bind fun _ h => h
    intro target
    apply turns_bind (fun _ h => h) (hsettle _)
    intro c
    exact turns_map (hforget _)
  | updateCriterion actor criterion data =>
    apply hweaken
    apply turns_map
    apply turns_reading_bind fun _ h => h
    intro c
    apply turns_bind (fun _ h => h) (hsettle _)
    intro updated
    exact turns_map (hforget _)
  | validatePipeline pipeline => exact hweaken (turns_map turns_reading)
  | setFlag actor flag lead criterion value notes => exact hweaken (turns_map (hsettle _))
  | statesFor lead criteria => exact hweaken (turns_map turns_reading)
  | getEntry caller entry => exact hweaken (turns_map turns_reading)
  | listActive caller pipeline => exact hweaken (turns_map turns_reading)
  | history entry => exact hweaken (turns_map turns_reading)
  | healthSummary caller pipeline =>
    apply hweaken
    apply turns_map
    exact turns_bind (fun _ h => h) (hsettle _) fun _ => turns_reading
  | writeAudit row => exact hweaken (turns_bind (fun _ h => h) (hcommit _ _) fun _ => turns_reading)
  | addRow table values => exact hweaken (turns_map (hcommit _ _))
  | changeRow table id values => exact hweaken (turns_map (hcommit _ _))
  | dump tables => exact hweaken (turns_map turns_reading)

end

theorem turns_run (k : Command) (env : Environment) :
    Turns (k.run env) Service.IsTrusty Service.IsFaithful := by
  have hweaken {op : Operation Value} (h : Turns op Service.IsFaithful Service.IsFaithful) :
      Turns op Service.IsTrusty Service.IsFaithful :=
    h.mono (fun _ => Service.IsTrusty.faithful) fun _ h => h
  cases k with
  | advance caller entry stage knowledge note =>
    apply turns_map
    apply Advancement.turns_advance (fun _ => Service.IsTrusty.faithful) fun _ _ _ _ => turns_held
    intro e
    apply Advancement.turns_advanceHeld (fun _ => Service.IsTrusty.faithful) fun _ => turns_loadChecks
    intro _ _ _ _
    exact turns_commit.mono (fun _ => Service.IsTrusty.faithful) fun _ h => h
  | enroll caller lead pipeline note => exact hweaken (turns_map (turns_enroll fun _ _ => turns_held_commit))
  | enrollMany caller leads pipeline skipExisting note =>
    exact hweaken (turns_map (turns_enrollMany fun _ _ _ => turns_held_commit))
  | archive caller entry reason => exact hweaken (turns_map (turns_archive fun _ _ _ => turns_held_commit))
  | transfer caller entry pipeline reason note =>
    exact hweaken (turns_map (turns_transfer fun _ _ _ _ => turns_held_commit))
  | hold owner key waiter wait =>
    unfold run runIn
    exact hweaken (turns_taking fun _ _ h => h)
  | holdMany owner keys wait =>
    unfold run runIn
    exact hweaken (turns_taking fun _ _ h => h)
  | release owner => exact hweaken (turns_releasing fun _ _ h => h)
  | _ =>
    -- These load criteria as well, and need to know that the rules of the store are documents.
    exact turns_of_quiet (fun _ => Service.IsTrusty.faithful) (fun _ _ => turns_commit) (fun _ => turns_loadChecks)
      (fun _ => turns_forget) rfl rfl env

end Command

end StageGate
