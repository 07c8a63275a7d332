import StageGate.Proofs.Loadable

/-!
This module contains which tables commands write rows of. What is kept by the writing of single rows is kept
by every command that writes rows of such tables only, and the rows of all other tables stay as they are.
-/

namespace StageGate

open Transaction Configuration

/-- The tables that a command may write rows of, besides those of entries and of the audit trail. -/
def Command.tables : Command → List Table
  | .createLead _ => [.lead]
  | .createPipeline .. => [.pipeline, .stage, .criterion]
  | .addStage .. => [.stage, .criterion]
  | .addCriterion .. | .updateCriterion .. => [.criterion]
  | .setFlag .. => [.flags]
  | _ => []

/-- What is kept by the rows that services write into some tables, and by all rows of entries and of the audit. -/
structure Closed (I : Store → Prop) (tables : List Table) : Prop where
  entries : ∀ s entries audit, I s → I { s with entries, audit }
  leads : .lead ∈ tables → ∀ s leads, I s → I { s with leads }
  pipelines : .pipeline ∈ tables → ∀ s p, I s → I { s with pipelines := s.pipelines ++ [p] }
  stages : .stage ∈ tables → ∀ s stage, I s → I { s with stages := s.stages ++ [stage] }
  added : .criterion ∈ tables → ∀ s stage c, IsNewCriterion stage s c → I s →
    I { s with criteria := s.criteria ++ [c] }
  updated : .criterion ∈ tables → ∀ s c new, c ∈ s.criteria → IsUpdate c new → I s →
    I { s with criteria := s.criteria.map fun x => if x.id = new.id then new else x }
  flags : .flags ∈ tables → ∀ s flags, I s → I { s with flags }

namespace Closed

variable {I : Store → Prop} {tables : List Table} {a : Author} {s s' : Store} (h : Closed I tables)

include h

theorem addAudit (hs : I s) (r : AuditRow) : I (s.addAudit r) :=
  h.entries s s.entries _ hs

/-! ## Configuration -/

theorem addCriterion (hc : .criterion ∈ tables) {stage : Stage} {data : Value} {c : Criterion}
    (home : stage.id ∈ s.stages.map (·.id)) (hs : I s)
    (hdone : Configuration.addCriterion a stage data s = .ok (c, s')) : I s' := by
  obtain ⟨hnew, r, rfl⟩ := of_addCriterion home hdone
  exact h.addAudit (h.added hc s stage c hnew hs) r

omit h in
theorem home_addCriterion {stage target : Stage} {data : Value} {c : Criterion}
    (home : target.id ∈ s.stages.map (·.id)) (hother : stage.id ∈ s.stages.map (·.id))
    (hdone : Configuration.addCriterion a target data s = .ok (c, s')) : stage.id ∈ s'.stages.map (·.id) := by
  obtain ⟨-, r, rfl⟩ := of_addCriterion home hdone
  exact hother

/-- The criteria of a stage that has been written are written behind it. -/
theorem preserves_addCriteria (hc : .criterion ∈ tables) {stage : Stage} {items : List Value} :
    Preserves (forIn items PUnit.unit fun data _ => do
        let _ ← Configuration.addCriterion a stage data
        return .yield PUnit.unit)
      fun s => stage.id ∈ s.stages.map (·.id) ∧ I s := by
  apply preserves_forIn
  intro data _ s _ s' ⟨home, hs⟩ hdone
  obtain ⟨c, s'', hadded, hdone⟩ := Transaction.bind_eq_ok.mp hdone
  obtain ⟨-, rfl⟩ := pure_eq_ok.mp hdone
  exact ⟨home_addCriterion home home hadded, h.addCriterion hc home hs hadded⟩

theorem preserves_addStageAfter (hstage : .stage ∈ tables) (hc : .criterion ∈ tables) {pipeline : Int}
    {orders : List Value} {data : Value} : (addStageAfter a pipeline orders data).Preserves I := by
  unfold addStageAfter
  apply preserves_lift_bind
  intro fields _
  apply preserves_lift_bind
  intro next _
  apply preserves_lift_bind
  intro order _
  apply preserves_reading_bind
  intro _ stage _ s r s' hs hdone
  obtain ⟨_, s₁, hadd, hdone⟩ := Transaction.bind_eq_ok.mp hdone
  simp only [Transaction.addStage, Transaction.bind_eq_ok, get_eq_ok, demand_eq_ok, modify_eq_ok] at hadd
  obtain ⟨_, _, ⟨rfl, rfl⟩, _, _, ⟨-, rfl⟩, rfl⟩ := hadd
  have hwritten : stage.id ∈ (s.stages ++ [stage]).map (·.id) ∧ I { s with stages := s.stages ++ [stage] } :=
    ⟨by simp, h.stages hstage s stage hs⟩
  have hkept : Preserves (do
      recordCreation a .stage stage.id pipeline
        [("name", .text stage.name), ("order", order), ("sla_deadline_days", deadlineOf fields)]
      for criterion in ← (Fields.getD fields "criteria" .null).items do
        let _ ← Configuration.addCriterion a stage criterion
      return (stage, order)) fun s => stage.id ∈ s.stages.map (·.id) ∧ I s := by
    refine preserves_bind ?_ fun _ => ?_
    . exact preserves_record fun s r hs => ⟨hs.1, h.addAudit hs.2 r⟩
    apply preserves_lift_bind
    intro items _
    exact preserves_bind (h.preserves_addCriteria hc) fun _ => preserves_pure _
  exact (hkept _ _ _ hwritten hdone).2

theorem preserves_addStage (hstage : .stage ∈ tables) (hc : .criterion ∈ tables) {p : Pipeline} {data : Value} :
    (Configuration.addStage a p data).Preserves I := by
  unfold Configuration.addStage
  refine preserves_bind preserves_get fun _ => ?_
  exact preserves_bind (h.preserves_addStageAfter hstage hc) fun _ => preserves_pure _

theorem preserves_addStages (hstage : .stage ∈ tables) (hc : .criterion ∈ tables) {pipeline : Int}
    {added : List (Stage × Value)} {items : List Value} : (addStages a pipeline added items).Preserves I := by
  induction items generalizing added with
  | nil => exact preserves_pure added
  | cons data rest ih =>
    unfold addStages
    exact preserves_bind (h.preserves_addStageAfter hstage hc) fun _ => ih

theorem preserves_createPipeline (hp : .pipeline ∈ tables) (hstage : .stage ∈ tables) (hc : .criterion ∈ tables)
    {data : Value} : (createPipeline a data).Preserves I := by
  unfold createPipeline
  apply preserves_lift_bind
  intro fields _
  apply preserves_reading_bind
  intro _ p _
  apply preserves_bind
  . exact preserves_modify fun s hs => h.pipelines hp s p hs
  intro _
  apply preserves_lift_bind
  intro items _
  apply preserves_bind (h.preserves_addStages hstage hc)
  intro added
  have hrecord : Preserves (do
      recordCreation a .pipeline p.id p.id [("name", .text p.name), ("stages", .int added.length)]
      return p) I :=
    preserves_bind (preserves_record fun s r hs => h.addAudit hs r) fun _ => preserves_pure p
  dsimp only
  split
  . exact preserves_lift_bind fun _ _ => hrecord
  . exact hrecord

/-! ## Leads, flags and entries -/

theorem addLead (hl : .lead ∈ tables) {now : Instant} {values : Fields} {l : Lead} (hs : I s)
    (hdone : Direct.addLead now values s = .ok (l, s')) : I s' := by
  simp only [Direct.addLead, Direct.add, Transaction.bind_eq_ok, lift_eq_ok, demand_eq_ok, get_eq_ok,
    pure_eq_ok, reading_eq_ok] at hdone
  obtain ⟨id, _, ⟨_, _, ⟨-, rfl⟩, _, _, ⟨-, rfl⟩, _, _, ⟨rfl, rfl⟩, kept, _, ⟨-, rfl⟩, _, _, ⟨-, rfl⟩, _, _, ⟨-, rfl⟩, _, _,
    hset, rfl, rfl⟩, -, rfl⟩ := hdone
  cases hset
  exact h.leads hl s _ hs

theorem setFlag (hf : .flags ∈ tables) {lead criterion : Value} {flag : Flagging.Flag} {value : Bool}
    {notes : Value} {r : FlagRow} (hs : I s)
    (hdone : Flagging.setFlag a lead criterion flag value notes s = .ok (r, s')) : I s' := by
  revert hdone
  apply preserves_reading_bind _ s r s' hs
  intro _ l _
  apply preserves_reading_bind
  intro _ c _
  apply preserves_reading_bind
  intro _ old _
  refine preserves_bind preserves_get fun _ => ?_
  apply preserves_lift_bind
  intro validatedBy _
  apply preserves_lift_bind
  intro notes _
  apply preserves_bind
  . unfold Flagging.saveRow
    split <;> exact preserves_modify fun s hs => h.flags hf s _ hs
  intro _
  apply preserves_reading_bind
  intro _ stage _
  exact preserves_bind (preserves_record fun s r hs => h.addAudit hs r) fun _ => preserves_pure _

theorem putEntry (hs : I s) (e : Entry) : I (s.putEntry e) :=
  h.entries s _ s.audit hs

theorem addEntry (hs : I s) (e : Entry) : I (s.addEntry e) :=
  h.entries s _ s.audit hs

theorem refresh {window pipeline : Value} {now : Instant} {r : Int × List Reading} (hs : I s)
    (hdone : HealthSummary.refresh window pipeline now s = .ok (r, s')) : I s' := by
  revert hdone
  apply preserves_reading_bind _ s r s' hs
  intro _ p _
  apply preserves_reading_bind
  intro _ readings _
  refine preserves_bind ?_ fun _ => preserves_pure _
  exact preserves_modify fun s hs => s.preserved_remembering (fun r _ s hs => h.putEntry hs _) hs

theorem step {f : Effect} (hf : f ≠ .quiet) (hs : I s) (hstep : s.Step f s') : I s' := by
  cases hstep with
  | enroll => exact h.addAudit (h.addEntry hs _) _
  | move => exact h.addAudit (h.putEntry hs _) _
  | archive => exact h.addAudit (h.putEntry hs _) _
  | transfer => exact h.addAudit (h.addEntry (h.putEntry hs _) _) _
  | _ => exact absurd rfl hf

theorem steps {f : Effect} {n : Nat} (hf : f ≠ .quiet) (hs : I s) (hsteps : s.Steps f n s') : I s' := by
  induction hsteps with
  | refl => exact hs
  | tail _ hstep ih => exact h.step hf ih hstep

end Closed

/-! ## Commands -/

theorem Command.Writes.preserves {env : Environment} {k : Command} {s s' : Store} {I : Store → Prop}
    (hw : k.Writes env s s') (hI : Closed I k.tables) (hs : I s) : I s' := by
  cases hw with
  | createLead done => exact hI.addLead (by simp [tables]) hs done
  | createPipeline done =>
    exact hI.preserves_createPipeline (by simp [tables]) (by simp [tables]) (by simp [tables]) _ _ _ hs done
  | addStage _ done => exact hI.preserves_addStage (by simp [tables]) (by simp [tables]) _ _ _ hs done
  | addCriterion found done =>
    have home := List.mem_map_of_mem (f := fun x : Stage => x.id) (Store.mem_of_stage found)
    exact hI.addCriterion (by simp [tables]) home hs done
  | updateCriterion found done =>
    obtain ⟨hupdate, r, rfl⟩ := of_updateCriterion done
    exact hI.addAudit (hI.updated (by simp [tables]) s _ _ (Store.mem_of_criterion found) hupdate hs) r
  | setFlag done => exact hI.setFlag (by simp [tables]) hs done
  | refresh done => exact hI.refresh hs done
  | entries effect steps => exact hI.steps effect hs steps

namespace Service

variable {I : Store → Prop}

theorem preserved_of_after {s : Service} (hs : s.store.IsSound) (t : Turn) (hI : Closed I t.command.tables)
    (h : I s.store) : I (s.after t).store := by
  rcases writes_of_after hs t with hsame | hwrites
  . rwa [hsame]
  . exact hwrites.preserves hI h

end Service

end StageGate
