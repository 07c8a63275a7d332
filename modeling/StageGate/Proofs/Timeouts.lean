import StageGate.Proofs.Unhindered

/-!
This module contains what the transactions on entries are made of, and that they never time out: only the taking of
locks does.
-/

namespace StageGate

/-- A fault that comes from waiting for a lock until the time was up. -/
def Fault.IsTimeout (e : Fault) : Prop :=
  ∃ lead pipeline seconds stage, e = .refused (.timedOut lead pipeline seconds stage)

def Fault.IsPrompt (e : Fault) : Prop :=
  ¬e.IsTimeout

@[simp]
theorem Fault.isPrompt_refused {r : Refusal} (h : ∀ l p seconds stage, r ≠ .timedOut l p seconds stage) :
    Fault.IsPrompt (.refused r) := by
  rintro ⟨l, p, seconds, stage, heq⟩
  rw [Fault.refused.injEq] at heq
  exact h l p seconds stage heq

@[simp]
theorem Fault.isPrompt_broken {b : Breakdown} : Fault.IsPrompt (.broken b) := by
  rintro ⟨_, _, _, _, heq⟩
  cases heq

theorem Fault.IsPlain.isPrompt {e : Fault} (h : e.IsPlain) : e.IsPrompt := by
  rintro ⟨_, _, _, _, rfl⟩
  exact h

/-! ## Computations -/

abbrev Prompt {α : Type} (x : Except Fault α) : Prop :=
  Ends Fault.IsPrompt x

@[simp low]
theorem prompt_of_plain {α : Type} {x : Except Fault α} (h : Plain x) : Prompt x := by
  intro e he
  exact (h e he).isPrompt

namespace Store

@[simp]
theorem prompt_require {α : Type} (resource : String) (row? : Int → Option α) (id : Value) :
    Prompt (require resource row? id) := by
  unfold require
  simp only [ends_bind, prompt_of_plain, plain_seek, true_and]
  intros
  split <;> simp

variable (s : Store) (id : Value)

@[simp]
theorem prompt_lead : Prompt (s.lead id) := by
  simp [lead]

@[simp]
theorem prompt_pipeline : Prompt (s.pipeline id) := by
  simp [pipeline]

@[simp]
theorem prompt_entry : Prompt (s.entry id) := by
  simp [entry]

end Store

namespace Enrollment

@[simp]
theorem prompt_enrollable (id : Value) (s : Store) : Prompt (enrollable id s) := by
  simp [enrollable]

@[simp]
theorem prompt_requireVacant (leadName pipelineName : Value) (lead pipeline : Int) (s : Store) :
    Prompt (requireVacant leadName pipelineName lead pipeline s) := by
  unfold requireVacant
  split <;> simp

@[simp]
theorem prompt_newEntry (c : Call) (name : Value) (lead pipeline : Int) (note : Value)
    (source : Option Int) (s : Store) : Prompt (newEntry c name lead pipeline note source s) := by
  simp [newEntry]

@[simp]
theorem prompt_candidates (names : List Value) (s : Store) : Prompt (candidates names s) := by
  unfold candidates
  simp only [ends_bind]
  refine ⟨by simp, fun _ _ => ⟨?_, ?_⟩⟩
  . apply ends_mapM
    simp
  . intros
    apply ends_mapM
    intros
    split <;> simp

end Enrollment

@[simp]
theorem Closing.prompt_requireOpen (e : Entry) : Prompt (requireOpen e) := by
  simp [requireOpen]

@[simp]
theorem Advancement.prompt_resolveTarget (e : Entry) (target : Value) (s : Store) :
    Prompt (resolveTarget e target s) := by
  unfold resolveTarget
  simp only [ends_bind, prompt_of_plain, Store.plain_follow, Store.plain_seek, true_and]
  intros
  split
  . simp
  . simp only [ends_bind, prompt_of_plain, plain_moveRefusal?, true_and]
    intros
    split
    . simp
    . split <;> simp

/-! ## Transactions on entries -/

namespace Transaction

/-- What holds of the parts of a transaction and of their sequence, where all that is recorded is recorded at a time. -/
structure Composes (P : (α : Type) → Transaction α → Prop) (time : Instant) : Prop where
  pure : ∀ {α : Type} (a : α), P α (pure a)
  bind : ∀ {α β : Type} {t : Transaction β} {f : β → Transaction α}, P β t → (∀ b, P α (f b)) → P α (t >>= f)
  get : P Store get
  reading : ∀ {α : Type} {g : Store → Except Fault α}, (∀ s, Prompt (g s)) → P α (reading g)
  lift : ∀ {α : Type} {x : Except Fault α}, Prompt x → P α (liftM x)
  addEntry : ∀ e, P Unit (addEntry e)
  putEntry : ∀ e, P Unit (putEntry e)
  record : ∀ n, P Unit (record n time)
  refusing : ∀ {α : Type} {lead pipeline : Value} {t : Transaction α}, P α t →
    P α (Enrollment.refusingEntry lead pipeline t)

namespace Composes

section

variable {P : (α : Type) → Transaction α → Prop} {c : Call} (h : Composes P c.now)

include h

theorem openEntry {name : Value} {lead pipeline : Int} {note : Value} {source : Option Int} :
    P _ (Enrollment.openEntry c name lead pipeline note source) := by
  unfold Enrollment.openEntry
  apply h.bind (h.reading (by simp))
  rintro ⟨e, first⟩
  apply h.bind (h.addEntry e)
  intro _
  exact h.pure _

theorem openRecorded {name : Value} {lead pipeline : Int} {note : Value} {bulk : Bool} :
    P _ (Enrollment.openRecorded c name lead pipeline note bulk) := by
  unfold Enrollment.openRecorded
  apply h.bind h.openEntry
  rintro ⟨e, first⟩
  apply h.bind (h.record _)
  intro _
  exact h.pure _

theorem openEach {name : Value} {pipeline : Int} {skipExisting : Bool} {note : Value}
    {leads : List Enrollment.Candidate} : P _ (Enrollment.openEach c name pipeline skipExisting note leads) := by
  induction leads with
  | nil => exact h.pure _
  | cons l leads ih =>
    unfold Enrollment.openEach
    refine h.bind h.get fun s => ?_
    split
    . apply h.bind ih
      intro _
      exact h.pure _
    . apply h.bind (h.refusing h.openRecorded)
      intro e
      apply h.bind ih
      intro _
      exact h.pure _

theorem close {e : Entry} {reason : Value} : P _ (Closing.close c e reason) := by
  unfold Closing.close
  apply h.bind (h.lift (by simp))
  intro kept
  apply h.bind (h.putEntry _)
  intro _
  exact h.pure _

theorem archiveRecorded {e : Entry} {reason : Value} : P _ (Closing.archiveRecorded c e reason) := by
  unfold Closing.archiveRecorded
  apply h.bind (h.lift (by simp))
  intro _
  apply h.bind (h.reading (by simp))
  intro stage
  apply h.bind h.close
  intro closed
  apply h.bind (h.record _)
  intro _
  exact h.pure _

theorem transferRecorded {e : Entry} {name : Value} {pipeline : Int} {reason note : Value} :
    P _ (Closing.transferRecorded c e name pipeline reason note) := by
  unfold Closing.transferRecorded
  apply h.bind (h.lift (by simp))
  intro _
  apply h.bind (h.reading (by simp))
  intro _
  apply h.bind (h.reading (by simp))
  intro stage
  apply h.bind h.close
  intro closed
  apply h.bind h.openEntry
  rintro ⟨opened, first⟩
  apply h.bind (h.record _)
  intro _
  exact h.pure _

theorem move {e : Entry} {current target : Stage} {verdict : Verdict} {sla : Health} {note : Value} :
    P _ (Advancement.move c e current target verdict sla note) := by
  rw [Advancement.move_universal]
  apply h.bind (h.reading (by simp))
  intro new
  apply h.bind (h.lift (by simp))
  intro isForward
  apply h.bind (h.putEntry _)
  intro _
  apply h.bind (h.record _)
  intro _
  apply h.bind (h.reading (by simp))
  intro view
  exact h.pure _

end

end Composes

section

variable {α β : Type}

def IsPrompt (t : Transaction α) : Prop :=
  ∀ s, Prompt (t s)

theorem isPrompt_bind {t : Transaction β} {f : β → Transaction α} (ht : t.IsPrompt) (hf : ∀ b, (f b).IsPrompt) :
    (t >>= f).IsPrompt := by
  intro s
  rw [bind_eq]
  exact ends_bind.mpr ⟨ht s, fun r _ => hf r.1 r.2⟩

theorem isPrompt_lift {x : Except Fault α} (hx : Prompt x) : (liftM x : Transaction α).IsPrompt := by
  intro s
  cases x with
  | ok a => exact ends_ok _
  | error e => exact ends_error.mpr (hx e rfl)

theorem isPrompt_demandAdmission (e : Entry) : (demandAdmission e).IsPrompt := by
  apply isPrompt_bind fun _ => ends_ok _
  intro s
  unfold demand
  split
  . exact fun _ => ends_ok _
  . exact fun _ => ends_error.mpr Fault.isPrompt_broken

end

/-- No transaction times out, since none of its parts does. -/
theorem composes_isPrompt (time : Instant) : Composes (fun _ t => t.IsPrompt) time where
  pure _ _ := ends_ok _
  bind := isPrompt_bind
  get _ := ends_ok _
  reading hg s := by
    rw [reading_eq]
    exact ends_map.mpr (hg s)
  lift := isPrompt_lift
  addEntry e := isPrompt_bind (isPrompt_demandAdmission e) fun _ _ => ends_ok _
  putEntry e := isPrompt_bind (isPrompt_demandAdmission e) fun _ _ => ends_ok _
  record n := by
    refine isPrompt_bind (isPrompt_lift ?_) fun _ _ => ends_ok _
    unfold signature
    simp only [ends_bind, prompt_of_plain, Column.plain_text, true_and]
    intro name _
    cases name <;> simp [signedBy]
  refusing ht s e he := by
    unfold Enrollment.refusingEntry refusingViolations at he
    split at he
    . cases he
      simp
    . exact ht s e he

end Transaction

end StageGate
