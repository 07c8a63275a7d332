import StageGate.Proofs.Operations
import StageGate.Proofs.Run

/-!
This module contains that every command of the services takes steps of its effect, as many as its answer
says, and none if it fails. What holds of every store that is reached follows from the steps.
-/

namespace StageGate

open Operation

/-! ## What commands do -/

namespace Command

def effect : Command → Effect
  | .enroll .. | .enrollMany .. => .enroll
  | .advance .. => .move
  | .archive .. => .archive
  | .transfer .. => .transfer
  | _ => .quiet

def caller? : Command → Option Caller
  | .enroll caller .. | .enrollMany caller .. | .advance caller .. | .archive caller .. | .transfer caller .. =>
    some caller
  | _ => none

def entryRows (k : Command) (answer : Value) : Nat :=
  match k with
  | .enroll .. | .archive .. | .transfer .. => 1
  | .enrollMany .. =>
    match answer.get "enrolled" with
    | .list views => views.length
    | _ => 0
  | .advance .. => if answer.get "ok" = .bool true then 1 else 0
  | _ => 0

def outcomeRows (k : Command) : Except Fault Value → Nat
  | .ok answer => k.entryRows answer
  | .error _ => 0

theorem entryRows_le_one {k : Command} (hk : k.effect ≠ .enroll) (answer : Value) :
    k.entryRows answer ≤ 1 := by
  cases k with
  | enrollMany => exact absurd rfl hk
  | advance =>
    unfold entryRows
    dsimp only
    split <;> omega
  | _ => simp [entryRows]

theorem entryRows_of_quiet {k : Command} (hk : k.effect = .quiet) (answer : Value) : k.entryRows answer = 0 := by
  cases k with
  | enroll | enrollMany | advance | archive | transfer => cases hk
  | _ => rfl

/-- A command that does as it should at a service: it takes its steps, or fails and changes no row. -/
def Behaves (k : Command) (env : Environment) (s : Service) : Prop :=
  (k.run env).Leads s s.store fun v s' => s.store.Steps k.effect (k.entryRows v) s'.store

section

variable {α : Type} {s : Service}

theorem leads_commit_quiet {t : Transaction α} (ht : t.IsQuiet) :
    (commit t).Leads s s.store fun _ s' => s.store.Steps .quiet 0 s'.store :=
  Leads.commit (ht s.store)

end

section

variable {env : Environment} {s : Service}

theorem behaves_createLead {values : Fields} : (createLead values).Behaves env s := by
  apply leads_commit_quiet
  apply Transaction.isQuiet_bind Direct.isQuiet_addLead
  intro l
  apply Transaction.isQuiet_reading
  simp [leadValue, Lead.shownSnapshot]

theorem behaves_createPipeline {actor data : Value} : (createPipeline actor data).Behaves env s := by
  unfold Behaves run runIn
  dsimp only
  rw [Administration.createPipeline_eq]
  apply Leads.bind (leads_commit_quiet Configuration.isQuiet_createPipeline)
  intro p s' hs'
  rw [leads_bind, leads_get, leads_pure]
  exact hs'

theorem behaves_addStage {actor pipeline data : Value} : (addStage actor pipeline data).Behaves env s := by
  unfold Behaves run runIn
  dsimp only
  rw [Administration.addStage_eq, leads_bind]
  apply leads_reading_bind rfl (by simp)
  intro p hp
  apply (Leads.commit (Configuration.leads_addStage (List.mem_map_of_mem (Store.mem_of_pipeline hp)))).mono
  intro stage s' hs'
  rw [leads_bind, leads_get, leads_pure]
  exact hs'

theorem behaves_addCriterion {actor stage data : Value} :
    (addCriterion actor stage data).Behaves env s := by
  unfold Behaves run runIn
  dsimp only
  rw [Administration.addCriterion_eq, leads_bind]
  apply leads_reading_bind rfl (by simp)
  intro target _
  apply Leads.bind (leads_commit_quiet Configuration.isQuiet_addCriterion)
  intro c s' hs'
  exact hs'

theorem behaves_updateCriterion {actor criterion data : Value} {shared : Bool} :
    (updateCriterion actor criterion data shared).Behaves env s := by
  unfold Behaves run runIn
  dsimp only
  rw [Administration.updateCriterion_eq, leads_bind]
  apply leads_reading_bind rfl (by simp)
  intro c hc
  apply Leads.bind (Leads.commit (Configuration.leads_updateCriterion (Store.mem_of_criterion hc)))
  intro updated s' hs'
  exact hs'

theorem behaves_enroll {caller : Caller} {lead pipeline note : Value} (hs : s.store.IsSound) :
    (enroll caller lead pipeline note).Behaves env s := by
  unfold Behaves run runIn
  exact Leads.bind (Enrollment.leads_enroll hs) fun _ _ h => h

theorem behaves_enrollMany {caller : Caller} {leads pipeline : Value} {skipExisting : Bool} {note : Value}
    (hs : s.store.IsSound) : (enrollMany caller leads pipeline skipExisting note).Behaves env s := by
  unfold Behaves run runIn
  apply Leads.bind (Enrollment.leads_enrollMany hs)
  intro b s' h
  rw [leads_pure]
  simpa [entryRows, Enrollment.Bulk.toValue, effect] using h

theorem behaves_advance {caller : Caller} {entry stage : Value} {knowledge : Advancement.Knowledge}
    {note : Value} (hs : s.store.IsSound) : (advance caller entry stage knowledge note).Behaves env s := by
  unfold Behaves run runIn
  apply Leads.bind (Advancement.leads_advance hs)
  intro m s' h
  rw [leads_pure]
  simpa [entryRows, Advancement.Move.toValue, effect] using h

theorem behaves_archive {caller : Caller} {entry reason : Value} :
    (archive caller entry reason).Behaves env s := by
  unfold Behaves run runIn
  exact Leads.bind Closing.leads_archive fun _ _ h => h

theorem behaves_transfer {caller : Caller} {entry pipeline reason note : Value} (hs : s.store.IsSound) :
    (transfer caller entry pipeline reason note).Behaves env s := by
  unfold Behaves run runIn
  exact Leads.bind (Closing.leads_transfer hs) fun _ _ h => h

theorem behaves_healthSummary {caller : Caller} {pipeline : Value} (hs : s.store.IsSound) :
    (healthSummary caller pipeline).Behaves env s := by
  unfold Behaves run runIn
  dsimp only
  rw [Administration.healthSummary_eq, leads_bind]
  apply Leads.bind (Leads.commit (HealthSummary.leads_refresh hs))
  rintro ⟨p, readings⟩ s' hsteps
  obtain ⟨stages, hstages⟩ := HealthSummary.exists_stagesInOrder (hs.steps hsteps) p
  rw [leads_bind, leads_reading_ok hstages]
  exact hsteps

theorem behaves_setFlag {actor : Value} {flag : Flagging.Flag} {lead criterion : Value} {value : Bool}
    {notes : Value} : (setFlag actor flag lead criterion value notes).Behaves env s := by
  unfold Behaves run runIn
  dsimp only
  rw [Administration.setFlag_eq]
  exact Leads.bind (leads_commit_quiet Flagging.isQuiet_setFlag) fun _ _ h => h

theorem leads_shown {α : Type} {f : Store → Except Fault α} {g : α → Value} (hf : ∀ s, Clear (f s)) :
    (do return g (← reading f) : Operation Value).Leads s s.store fun _ s' =>
      s.store.Steps .quiet 0 s'.store := by
  rw [leads_bind, leads_reading rfl]
  exact ⟨hf s.store, fun _ _ => .refl⟩

theorem leads_taking {take : Registry → Except Fault Unit × Registry} (ht : Clear (take s.locks).1) :
    (taking take).Leads s s.store fun _ s' => s.store.Steps .quiet 0 s'.store := by
  unfold taking Leads
  dsimp only
  rcases h : take s.locks with ⟨result, locks⟩
  rw [h] at ht
  cases result with
  | ok _ => exact .refl
  | error e => exact ⟨rfl, ht e rfl⟩

theorem leads_releasing {owner : Owner} :
    (releasing owner).Leads s s.store fun _ s' => s.store.Steps .quiet 0 s'.store := by
  unfold releasing
  rw [leads_bind, leads_get]
  split <;> exact .refl

theorem behaves (k : Command) (env : Environment) (hk : k.isService) (hs : s.store.IsSound) :
    k.Behaves env s := by
  cases k with
  | createLead => exact behaves_createLead
  | createPipeline => exact behaves_createPipeline
  | addStage => exact behaves_addStage
  | addCriterion => exact behaves_addCriterion
  | updateCriterion => exact behaves_updateCriterion
  | validatePipeline pipeline =>
    apply leads_shown
    simp
  | loadCriteria stage =>
    unfold Behaves run runIn Administration.checksOf
    rw [leads_bind]
    apply leads_reading_bind rfl (by simp)
    intro target _
    apply Advancement.leads_loadChecks.mono
    intro checks s' hs'
    rw [leads_pure, hs']
    exact .refl
  | setFlag => exact behaves_setFlag
  | statesFor lead criteria =>
    apply leads_shown
    simp
  | enroll => exact behaves_enroll hs
  | enrollMany => exact behaves_enrollMany hs
  | advance => exact behaves_advance hs
  | preview caller entry knowledge =>
    unfold Behaves run runIn
    apply Leads.bind Advancement.leads_preview
    intro verdict s' hs'
    rw [leads_pure, hs']
    exact .refl
  | archive => exact behaves_archive
  | transfer => exact behaves_transfer hs
  | getEntry caller entry =>
    apply leads_shown
    simp
  | listActive caller pipeline =>
    apply leads_shown
    simp
  | history entry =>
    apply leads_shown
    intro store
    simp only [ends_bind]
    refine ⟨by simp, fun e _ => ends_mapM ?_⟩
    simp
  | healthSummary => exact behaves_healthSummary hs
  | dump tables =>
    apply leads_shown
    intro store
    apply ends_mapM
    simp
  | hold owner key waiter wait =>
    unfold Behaves run runIn
    apply leads_taking
    simp
  | holdMany owner keys wait =>
    unfold Behaves run runIn
    apply leads_taking
    simp
  | release => exact leads_releasing
  | writeAudit | addRow | changeRow => cases hk

end

end Command

/-! ## Runs -/

namespace Service

variable {s : Service} {t : Turn}

theorem steps_of_answer {v : Value} (hs : s.store.IsSound) (h : s.answer t = .ok v) :
    s.store.Steps t.command.effect (t.command.entryRows v) (s.after t).store := by
  have hb := t.command.behaves t.env t.isService hs
  unfold answer at h
  unfold Command.Behaves Leads at hb
  unfold after
  rcases hrun : t.command.run t.env s with ⟨r, s'⟩
  rw [hrun] at hb h
  cases h
  exact hb

theorem store_of_fault {e : Fault} (hs : s.store.IsSound) (h : s.answer t = .error e) :
    (s.after t).store = s.store ∧ e.IsClear := by
  have hb := t.command.behaves t.env t.isService hs
  unfold answer at h
  unfold Command.Behaves Leads at hb
  unfold after
  rcases hrun : t.command.run t.env s with ⟨r, s'⟩
  rw [hrun] at hb h
  cases h
  exact hb

theorem exists_steps (hs : s.store.IsSound) (t : Turn) : ∃ n,
    s.store.Steps t.command.effect n (s.after t).store ∧ (t.command.effect ≠ .enroll → n ≤ 1) := by
  cases h : s.answer t with
  | ok v => exact ⟨_, steps_of_answer hs h, fun he => Command.entryRows_le_one he v⟩
  | error e =>
    rw [(store_of_fault hs h).1]
    exact ⟨0, .refl, fun _ => by omega⟩

/-- What holds of every step from a store as it always is, and of what is put together, holds of runs. -/
theorem run_induction (R : Store → Store → Prop) (refl : ∀ s, R s s)
    (trans : ∀ {s s' s''}, R s s' → R s' s'' → R s s'')
    (step : ∀ {f : Effect} {s s' : Store}, s.IsSound → s.Step f s' → R s s')
    (hs : s.store.IsSound) (ts : List Turn) : R s.store (s.run ts).store := by
  -- A turn is a number of steps, and the store is sound before each of them.
  have steps {f : Effect} {n : Nat} {s s' : Store} (hs : s.IsSound) (h : s.Steps f n s') : R s s' := by
    induction h with
    | refl => exact refl s
    | tail hsteps hstep ih => exact trans ih (step (hs.steps hsteps) hstep)
  induction ts generalizing s with
  | nil => exact refl s.store
  | cons t ts ih =>
    obtain ⟨n, hsteps, -⟩ := exists_steps hs t
    exact trans (steps hs hsteps) (ih (hs.steps hsteps))

theorem isSound_run (hs : s.store.IsSound) (ts : List Turn) : (s.run ts).store.IsSound :=
  run_induction (fun s s' => s.IsSound → s'.IsSound) (fun _ h => h) (fun h h' hs => h' (h hs))
    (fun _ hstep hs => hs.step hstep) hs ts hs

theorem isSound_reached (ts : List Turn) : (reached ts).store.IsSound :=
  isSound_run Store.isSound_empty ts

end Service

end StageGate
