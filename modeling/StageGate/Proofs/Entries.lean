import StageGate.Proofs.Quiet

/-!
This module contains that the operations on entries take the steps they are meant to take, and that they
end in a fault only if they have changed nothing.
-/

namespace StageGate

open Transaction

namespace Store

theorem exists_view_of_opening {c : Call} {s : Store} {e : Entry} {first : Stage}
    (hs : (s.stages.map (·.id)).Pairwise (· < ·)) (h : Opening c s e first) :
    ∃ v, s.view c.window c.now e = .ok v := by
  apply exists_view
  intro _
  obtain ⟨health, hhealth, -⟩ := h.health
  refine ⟨first, health, ?_, ?_⟩
  . unfold stage?
    rw [find?_id_eq_some hs]
    exact ⟨(mem_of_head?_stagesOf h.head).1, h.stage.symm⟩
  . rw [h.enteredAt]
    exact hhealth

theorem exists_view_of_closed {s : Store} {window : Value} {now : Instant} {e : Entry} (h : ¬e.isActive) :
    ∃ v, s.view window now e = .ok v :=
  exists_view fun ha => absurd ha h

end Store

/-! ## Enrollment -/

namespace Enrollment

variable {c : Call} {s : Store}

theorem leads_openEntry {name : Value} {lead pipeline : Int} {note : Value} {source : Option Int} :
    (openEntry c name lead pipeline note source).Leads s fun (e, first) s' =>
      s' = s.addEntry e ∧ e.lead = lead ∧ e.pipeline = pipeline ∧ e.transferredFrom = source ∧
        Opening c s e first := by
  unfold openEntry
  apply leads_reading_bind (by simp)
  rintro ⟨e, first⟩ h
  obtain ⟨ho, hlead, hpipeline, hsource⟩ := opening_of_newEntry h
  dsimp only
  rw [leads_bind, leads_addEntry (Store.IsSound.admits_vacant ho.vacant), leads_pure]
  exact ⟨rfl, hlead, hpipeline, hsource, ho⟩

theorem leads_openRecorded {name : Value} {lead pipeline : Int} {note : Value} {bulk : Bool}
    (hs : s.IsSound) (hl : s.Knows lead) : (openRecorded c name lead pipeline note bulk).Leads s fun e s' =>
      s.Step .enroll s' ∧ ∃ v, s.view c.window c.now e = .ok v := by
  unfold openRecorded
  apply Leads.bind leads_openEntry
  rintro ⟨e, first⟩ _ ⟨rfl, rfl, _, hsource, ho⟩
  rw [leads_bind]
  apply leads_record
  intro actor
  rw [leads_pure]
  exact ⟨.enroll ho hsource bulk actor hl, s.exists_view_of_opening hs.stageIds ho⟩

theorem leads_refusingEntry {α : Type} {lead pipeline : Value} {t : Transaction α} {post : α → Store → Prop}
    (h : t.Leads s post) : (refusingEntry lead pipeline t).Leads s post := by
  apply leads_refusingViolations _ h
  simp [Fault.constraint?]

theorem leads_openEach {name : Value} {pipeline : Int} {skipExisting : Bool} {note : Value}
    {leads : List Candidate} (hs : s.IsSound) (hl : ∀ l ∈ leads, s.Knows l.lead) :
    (openEach c name pipeline skipExisting note leads).Leads s fun (entries, _) s' =>
      s.Steps .enroll entries.length s' ∧ ∀ e ∈ entries, ∃ v, s.view c.window c.now e = .ok v := by
  -- By induction on the leads; the store that one of them leaves is sound again for the next one.
  induction leads generalizing s with
  | nil => exact ⟨.refl, by simp⟩
  | cons l leads ih =>
    unfold openEach
    rw [leads_bind, leads_get]
    have hrest : ∀ l ∈ leads, s.Knows l.lead := fun x hx => hl x (by simp [hx])
    split
    . rw [leads_bind]
      exact ih hs hrest
    . apply Leads.bind (leads_refusingEntry (leads_openRecorded hs (hl l (by simp))))
      rintro e s' ⟨hstep, hview⟩
      apply Leads.bind (ih (hs.step hstep) fun x hx => (hrest x hx).mono hstep.keeps)
      rintro ⟨entries, _⟩ s'' ⟨hsteps, hviews⟩
      rw [leads_pure]
      constructor
      . rw [List.length_cons, Nat.add_comm]
        exact hstep.steps.trans hsteps
      . intro x hx
        rcases List.mem_cons.mp hx with rfl | hx
        . exact hview
        . obtain ⟨v, hv⟩ := hviews x hx
          rw [Store.view_congr (hstep.stages_eq (by simp))] at hv
          exact ⟨v, hv⟩

end Enrollment

/-! ## Closing -/

namespace Closing

variable {c : Call} {s : Store} {e : Entry}

theorem isActive_of_requireOpen {u : Unit} (h : requireOpen e = .ok u) : e.isActive := by
  rw [Entry.isActive_iff]
  cases hs : e.status <;> simp [requireOpen, hs, Status.canBecome] at h ⊢

theorem leads_close {reason : Value} : (close c e reason).Leads s fun closed s' =>
    ∃ kept, keptReason reason = .ok kept ∧ closed = e.archive kept c.now ∧ s' = s.putEntry closed := by
  unfold close
  apply leads_lift_bind (by simp)
  intro kept hkept
  have hadmits : s.admits (e.archive kept c.now) := by
    rw [Store.admits_iff]
    simp [Entry.isActive, Entry.archive]
  rw [leads_bind, leads_putEntry hadmits, leads_pure]
  exact ⟨kept, hkept, rfl, rfl⟩

theorem leads_archiveRecorded {reason : Value} (he : e ∈ s.entries) :
    (archiveRecorded c e reason).Leads s fun closed s' => s.Step .archive s' ∧ ¬closed.isActive := by
  unfold archiveRecorded
  apply leads_lift_bind (by simp)
  intro _ hopen
  have held : s.Holds e := ⟨he, isActive_of_requireOpen hopen⟩
  apply leads_reading_bind (by simp)
  intro stage hstage
  rw [Store.follow_eq_ok] at hstage
  apply Leads.bind leads_close
  rintro _ _ ⟨kept, hkept, rfl, rfl⟩
  rw [leads_bind]
  apply leads_record
  intro actor
  rw [leads_pure]
  exact ⟨.archive held hstage hkept actor, by simp [Entry.isActive, Entry.archive]⟩

theorem leads_transferRecorded {name : Value} {pipeline : Int} {reason note : Value} (hs : s.IsSound)
    (he : e ∈ s.entries) (hname : Store.rowId? name = .ok (some pipeline)) :
    (transferRecorded c e name pipeline reason note).Leads s fun (closed, opened) s' =>
      s.Step .transfer s' ∧ ¬closed.isActive ∧ ∃ v, s.view c.window c.now opened = .ok v := by
  unfold transferRecorded
  apply leads_lift_bind (by simp)
  intro _ hopen
  have held : s.Holds e := ⟨he, isActive_of_requireOpen hopen⟩
  apply leads_reading_bind (by simp)
  intro _ hvacant
  have hvacant := Enrollment.vacant_of_requireVacant hvacant
  -- The entry takes up the place in its own pipeline, so the vacant one is in another.
  have hapart : pipeline ≠ e.pipeline :=
    (Store.activeEntryIn?_eq_none.mp hvacant e he held.isActive rfl).symm
  apply leads_reading_bind (by simp)
  intro stage hstage
  rw [Store.follow_eq_ok] at hstage
  apply Leads.bind leads_close
  rintro _ _ ⟨kept, hkept, rfl, rfl⟩
  apply Leads.bind Enrollment.leads_openEntry
  rintro ⟨opened, first⟩ _ ⟨rfl, hlead, rfl, horigin, ho⟩
  rw [leads_bind]
  apply leads_record
  intro actor
  rw [leads_pure]
  refine ⟨.transfer held hstage hkept hlead hname hapart ho horigin actor, ?_, ?_⟩
  . simp [Entry.isActive, Entry.archive]
  . obtain ⟨v, hv⟩ := Store.exists_view_of_opening (hs.archive held hkept c.now).stageIds ho
    rw [Store.view_congr (Store.putEntry_stages s _)] at hv
    exact ⟨v, hv⟩

end Closing

/-! ## Advancement -/

namespace Advancement

variable {c : Call} {s : Store} {e : Entry}

theorem leads_move {name : Value} {current target : Stage} {verdict : Verdict} {sla : Health} {note : Value}
    (hs : s.IsSound) (held : s.Holds e) (here : s.stage? e.stage = some current)
    (resolved : resolveTarget e name s = .ok target) :
    (move c e current target verdict sla note).Leads s fun m s' => s.Step .move s' ∧ m.ok := by
  rw [move_universal]
  apply leads_reading_bind (by simp)
  intro new hnew
  have hplaced := isPlaced_of_placed hnew
  have hadmits : s.admits new :=
    hs.admits held.mem hplaced.id hplaced.lead hplaced.pipeline fun _ => held.isActive
  apply leads_lift_bind (by simp)
  intro isForward _
  dsimp only
  rw [leads_bind, leads_putEntry hadmits, leads_bind]
  apply leads_record
  intro actor
  apply leads_reading_bind (by simp)
  intro view _
  rw [leads_pure]
  refine ⟨.move held here resolved hnew _ sla _ actor ?_, ?_⟩
  . cases new.isActive <;> cases isForward <;> simp
  . unfold Move.ok
    split
    . rfl
    . split <;> rfl

end Advancement

end StageGate
