import StageGate.Proofs.Unhindered

/-!
This module contains exactly when transactions succeed and what they write then, for every transaction that
opens, moves or closes an entry.
-/

namespace StageGate

namespace Transaction

section

variable {α β : Type} {s s' : Store} {a : α}

theorem bind_eq_ok {t : Transaction β} {f : β → Transaction α} :
    (t >>= f) s = .ok (a, s') ↔ ∃ b s'', t s = .ok (b, s'') ∧ f b s'' = .ok (a, s') := by
  rw [bind_eq, StageGate.bind_eq_ok, Prod.exists]

theorem pure_eq_ok {b : α} : (pure b : Transaction α) s = .ok (a, s') ↔ b = a ∧ s = s' := by
  have h : (pure b : Transaction α) s = .ok (b, s) := rfl
  simp [h]

theorem get_eq_ok {x : Store} : (get : Transaction Store) s = .ok (x, s') ↔ s = x ∧ s = s' := by
  have h : (get : Transaction Store) s = .ok (s, s) := rfl
  simp [h]

theorem lift_eq_ok {x : Except Fault α} :
    (liftM x : Transaction α) s = .ok (a, s') ↔ x = .ok a ∧ s = s' := by
  cases x <;> simp [liftM, monadLift, MonadLift.monadLift, StateT.lift, bind, Except.bind, pure, Except.pure]

theorem modify_eq_ok {f : Store → Store} {u : PUnit} :
    (modify f : Transaction PUnit) s = .ok (u, s') ↔ f s = s' := by
  have h : (modify f : Transaction PUnit) s = .ok (⟨⟩, f s) := rfl
  simp [h]

theorem reading_eq_ok {g : Store → Except Fault α} : reading g s = .ok (a, s') ↔ g s = .ok a ∧ s = s' := by
  rw [reading_eq]
  cases g s <;> simp [Except.map]

theorem demand_eq_ok {holds : Bool} {e : Fault} {u : Unit} :
    demand holds e s = .ok (u, s') ↔ holds ∧ s = s' := by
  cases holds with
  | true =>
    have h : demand true e s = .ok ((), s) := rfl
    simp [h]
  | false =>
    have h : demand false e s = .error e := rfl
    simp [h]

/-! The same from what is done first: it answers, or the fault it ends in is the fault of all. -/

theorem bind_of_ok {t : Transaction β} {b : β} (h : t s = .ok (b, s')) (f : β → Transaction α) :
    (t >>= f) s = f b s' := by
  rw [bind_eq, h]
  rfl

theorem bind_of_error {t : Transaction β} {e : Fault} (h : t s = .error e) (f : β → Transaction α) :
    (t >>= f) s = .error e := by
  rw [bind_eq, h]
  rfl

theorem reading_bind_of_ok {g : Store → Except Fault β} {b : β} (h : g s = .ok b) (f : β → Transaction α) :
    (reading g >>= f) s = f b s :=
  bind_of_ok (reading_eq_ok.mpr ⟨h, rfl⟩) f

theorem reading_bind_of_error {g : Store → Except Fault β} {e : Fault} (h : g s = .error e)
    (f : β → Transaction α) : (reading g >>= f) s = .error e := by
  apply bind_of_error
  rw [reading_eq, h]
  rfl

theorem lift_bind_of_ok {x : Except Fault β} {b : β} (h : x = .ok b) (f : β → Transaction α) :
    ((liftM x : Transaction β) >>= f) s = f b s :=
  bind_of_ok (lift_eq_ok.mpr ⟨h, rfl⟩) f

theorem lift_bind_of_error {x : Except Fault β} {e : Fault} (h : x = .error e) (f : β → Transaction α) :
    ((liftM x : Transaction β) >>= f) s = .error e := by
  subst h
  rfl

theorem refusingViolations_of_refused {refusal : String → Refusal} {t : Transaction α} {r : Refusal}
    (h : t s = .error (.refused r)) : refusingViolations refusal t s = .error (.refused r) := by
  unfold refusingViolations
  rw [h]

theorem refusingViolations_of_plain {refusal : String → Refusal} {t : Transaction α} {e : Fault}
    (h : t s = .error e) (he : e.IsPlain) : refusingViolations refusal t s = .error e := by
  unfold refusingViolations
  rw [h]
  cases e with
  | refused r => rfl
  | broken b =>
    cases b with
    | violated => cases he
    | _ => rfl

theorem refusingViolations_eq_ok {refusal : String → Refusal} {t : Transaction α} :
    refusingViolations refusal t s = .ok (a, s') ↔ t s = .ok (a, s') := by
  unfold refusingViolations
  split
  . next h => simp [h]
  . rfl

end

section

variable {s s' : Store} {u : Unit}

theorem addEntry_eq_ok {e : Entry} : addEntry e s = .ok (u, s') ↔ s.admits e ∧ s.addEntry e = s' := by
  simp only [addEntry, demandAdmission, bind_eq_ok, get_eq_ok, demand_eq_ok, modify_eq_ok]
  grind

theorem putEntry_eq_ok {e : Entry} : putEntry e s = .ok (u, s') ↔ s.admits e ∧ s.putEntry e = s' := by
  simp only [putEntry, demandAdmission, bind_eq_ok, get_eq_ok, demand_eq_ok, modify_eq_ok]
  grind

theorem record_eq_ok {n : Note} {time : Instant} : record n time s = .ok (u, s') ↔
    ∃ name, signature n.actor = .ok name ∧ s.addAudit (n.row name time s) = s' := by
  simp only [record, addAudit, bind_eq_ok, get_eq_ok, lift_eq_ok, modify_eq_ok]
  grind

theorem record_of_error {n : Note} {time : Instant} {e : Fault} (h : signature n.actor = .error e) :
    record n time s = .error e := by
  unfold record
  apply bind_of_error
  rw [h]
  rfl

end

end Transaction

open Transaction

theorem Store.exists_view_of_archive (s : Store) (e : Entry) (kept : Option String) (c : Call) :
    ∃ v, s.view c.window c.now (e.archive kept c.now) = .ok v :=
  exists_view_of_closed (by simp [Entry.isActive, Entry.archive])

/-! ## Enrollment -/

namespace Enrollment

variable {c : Call} {s s' : Store} {e : Entry} {name note : Value} {lead pipeline : Int}

theorem id_of_enrollable {id : Int} {p : Pipeline} (h : enrollable (.int id) s = .ok p) :
    p.id = id :=
  (Store.eq_of_rowId?_int (Store.rowId?_of_pipeline rfl (pipeline_of_enrollable h))).symm

theorem requireVacant_eq_ok {leadName pipelineName : Value} {u : Unit} :
    requireVacant leadName pipelineName lead pipeline s = .ok u ↔ s.activeEntryIn? lead pipeline = none := by
  unfold requireVacant
  split <;> simp_all

/-- The entry that a lead gets in the first stage of a pipeline. -/
def fresh (c : Call) (lead pipeline : Int) (note : Option String) (source : Option Int) (first : Stage)
    (bucket : Bucket) (s : Store) : Entry := {
  id := Store.nextId (s.entries.map (·.id))
  lead
  pipeline
  stage := first.id
  status := .active
  enrolledAt := c.now
  enteredAt := c.now
  closedAt := none
  archiveReason := none
  note
  healthCache := some bucket.name
  transferredFrom := source }

theorem newEntry_eq_ok {source : Option Int} {first : Stage} :
    newEntry c name lead pipeline note source s = .ok (e, first) ↔
      s.activeEntryIn? lead pipeline = none ∧ (s.stagesOf pipeline).head? = some first ∧
        ∃ kept health, Column.text note = .ok kept ∧
          Health.of c.now c.now first.deadline c.window = .ok health ∧
          e = fresh c lead pipeline kept source first health.bucket s := by
  rw [newEntry_universal]
  simp only [StageGate.bind_eq_ok, requireVacant_eq_ok, Store.follow_eq_ok, pure, Except.pure, Except.ok.injEq,
    Prod.mk.injEq, fresh]
  grind

theorem openEntry_eq_ok {source : Option Int} {first : Stage} :
    openEntry c name lead pipeline note source s = .ok ((e, first), s') ↔
      newEntry c name lead pipeline note source s = .ok (e, first) ∧ s' = s.addEntry e := by
  unfold openEntry
  rw [Transaction.bind_eq_ok]
  constructor
  . rintro ⟨⟨x, stage⟩, s'', hnew, h⟩
    simp only [reading_eq_ok, Transaction.bind_eq_ok, addEntry_eq_ok, pure_eq_ok, Prod.mk.injEq] at hnew h
    obtain ⟨hnew, rfl⟩ := hnew
    obtain ⟨_, _, ⟨-, rfl⟩, ⟨rfl, rfl⟩, rfl⟩ := h
    exact ⟨hnew, rfl⟩
  . rintro ⟨hnew, rfl⟩
    obtain ⟨hvacant, -, kept, health, -, -, he⟩ := newEntry_eq_ok.mp hnew
    have hadmits : s.admits e := by
      apply Store.IsSound.admits_vacant
      rw [he]
      exact hvacant
    refine ⟨(e, first), s, reading_eq_ok.mpr ⟨hnew, rfl⟩, ?_⟩
    simp only [Transaction.bind_eq_ok, addEntry_eq_ok, pure_eq_ok]
    exact ⟨(), _, ⟨hadmits, rfl⟩, trivial, rfl⟩

def enrolledRow (c : Call) (e : Entry) (first : Stage) (bulk : Bool) (actor : String) (s : Store) : AuditRow :=
  Note.row ⟨.entry, e.id, some e.lead, some e.pipeline, .enroll, c.actor, .enrolled first.ref bulk⟩ actor c.now s

theorem openRecorded_eq_ok {bulk : Bool} :
    openRecorded c name lead pipeline note bulk s = .ok (e, s') ↔
      ∃ first actor, newEntry c name lead pipeline note none s = .ok (e, first) ∧
        signature c.actor = .ok actor ∧
        s' = (s.addEntry e).addAudit (enrolledRow c e first bulk actor (s.addEntry e)) := by
  unfold openRecorded
  rw [Transaction.bind_eq_ok]
  constructor
  . rintro ⟨⟨x, first⟩, s'', hopen, h⟩
    obtain ⟨hnew, rfl⟩ := openEntry_eq_ok.mp hopen
    simp only [Transaction.bind_eq_ok, record_eq_ok, pure_eq_ok] at h
    obtain ⟨_, _, ⟨actor, hactor, rfl⟩, rfl, rfl⟩ := h
    exact ⟨first, actor, hnew, hactor, rfl⟩
  . rintro ⟨first, actor, hnew, hactor, rfl⟩
    refine ⟨(e, first), _, openEntry_eq_ok.mpr ⟨hnew, rfl⟩, ?_⟩
    simp only [Transaction.bind_eq_ok, record_eq_ok, pure_eq_ok]
    exact ⟨(), _, ⟨actor, hactor, rfl⟩, trivial, rfl⟩

theorem exists_view_of_newEntry {source : Option Int} {first : Stage}
    (hs : (s.stages.map (·.id)).Pairwise (· < ·))
    (h : newEntry c name lead pipeline note source s = .ok (e, first)) :
    ∃ v, s.view c.window c.now e = .ok v :=
  s.exists_view_of_opening hs (opening_of_newEntry h).1

theorem exists_view_of_openRecorded {bulk : Bool} (hs : (s.stages.map (·.id)).Pairwise (· < ·))
    (h : openRecorded c name lead pipeline note bulk s = .ok (e, s')) :
    s'.stages = s.stages ∧ ∃ v, s'.view c.window c.now e = .ok v := by
  obtain ⟨first, actor, hnew, -, rfl⟩ := openRecorded_eq_ok.mp h
  obtain ⟨v, hv⟩ := exists_view_of_newEntry hs hnew
  refine ⟨rfl, v, ?_⟩
  rw [← hv]
  exact Store.view_congr rfl c.window c.now e

theorem exists_enrolling_eq_ok {leadName pipelineName : Value} (hs : s.IsSound) :
    (∃ v, enrolling c leadName pipelineName note s = .ok (v, s')) ↔
      ∃ l p e, s.lead leadName = .ok l ∧ enrollable pipelineName s = .ok p ∧
        openRecorded c leadName l.id p.id note false s = .ok (e, s') := by
  simp only [enrolling, refusingEntry, Transaction.bind_eq_ok, reading_eq_ok, refusingViolations_eq_ok]
  constructor
  . rintro ⟨v, l, _, ⟨hl, rfl⟩, p, _, ⟨hp, rfl⟩, e, _, he, -, rfl⟩
    exact ⟨l, p, e, hl, hp, he⟩
  . rintro ⟨l, p, e, hl, hp, he⟩
    obtain ⟨-, v, hv⟩ := exists_view_of_openRecorded hs.stageIds he
    exact ⟨v, l, s, ⟨hl, rfl⟩, p, s, ⟨hp, rfl⟩, e, _, he, hv, rfl⟩

end Enrollment

/-! ## Closing -/

namespace Closing

variable {c : Call} {s s' : Store} {e : Entry} {reason : Value}

theorem requireOpen_eq_ok {u : Unit} : requireOpen e = .ok u ↔ e.isActive := by
  rw [Entry.isActive_iff]
  cases hs : e.status <;> simp [requireOpen, hs, Status.canBecome]

def archivedRow (c : Call) (e : Entry) (stage : Stage) (reason : Value) (actor : String) (s : Store) : AuditRow :=
  Note.row ⟨.entry, e.id, some e.lead, some e.pipeline, .archive, c.actor, .archived stage.ref reason⟩ actor c.now s

theorem close_eq_ok {closed : Entry} : close c e reason s = .ok (closed, s') ↔
    ∃ kept, keptReason reason = .ok kept ∧ closed = e.archive kept c.now ∧ s' = s.putEntry closed := by
  simp only [close, Transaction.bind_eq_ok, lift_eq_ok, putEntry_eq_ok, pure_eq_ok]
  constructor
  . rintro ⟨kept, _, ⟨hkept, rfl⟩, _, _, ⟨-, rfl⟩, rfl, rfl⟩
    exact ⟨kept, hkept, rfl, rfl⟩
  . rintro ⟨kept, hkept, rfl, rfl⟩
    have hadmits : s.admits (e.archive kept c.now) := by simp [Store.admits_iff, Entry.isActive, Entry.archive]
    exact ⟨kept, s, ⟨hkept, rfl⟩, (), _, ⟨hadmits, rfl⟩, rfl, rfl⟩

theorem archiveRecorded_eq_ok {closed : Entry} : archiveRecorded c e reason s = .ok (closed, s') ↔
    e.isActive ∧ ∃ stage kept actor, s.stage? e.stage = some stage ∧ keptReason reason = .ok kept ∧
      signature c.actor = .ok actor ∧ closed = e.archive kept c.now ∧
      s' = (s.putEntry closed).addAudit (archivedRow c e stage reason actor (s.putEntry closed)) := by
  simp only [archiveRecorded, Transaction.bind_eq_ok, lift_eq_ok, reading_eq_ok, requireOpen_eq_ok,
    Store.follow_eq_ok, close_eq_ok, record_eq_ok, pure_eq_ok]
  constructor
  . rintro ⟨_, _, ⟨hopen, rfl⟩, stage, _, ⟨hstage, rfl⟩, _, _, ⟨kept, hkept, rfl, rfl⟩, _, _,
      ⟨actor, hactor, rfl⟩, rfl, rfl⟩
    exact ⟨hopen, stage, kept, actor, hstage, hkept, hactor, rfl, rfl⟩
  . rintro ⟨hopen, stage, kept, actor, hstage, hkept, hactor, rfl, rfl⟩
    exact ⟨(), s, ⟨hopen, rfl⟩, stage, s, ⟨hstage, rfl⟩, _, _, ⟨kept, hkept, rfl, rfl⟩, (), _,
      ⟨actor, hactor, rfl⟩, rfl, rfl⟩

theorem exists_archiving_eq_ok {entry : Value} :
    (∃ v, archiving c entry reason s = .ok (v, s')) ↔
      ∃ e closed, s.entry entry = .ok e ∧ archiveRecorded c e reason s = .ok (closed, s') := by
  simp only [archiving, Transaction.bind_eq_ok, reading_eq_ok]
  constructor
  . rintro ⟨v, e, _, ⟨he, rfl⟩, closed, _, hclosed, -, rfl⟩
    exact ⟨e, closed, he, hclosed⟩
  . rintro ⟨e, closed, he, hclosed⟩
    obtain ⟨-, stage, kept, actor, -, -, -, rfl, -⟩ := archiveRecorded_eq_ok.mp hclosed
    obtain ⟨v, hv⟩ := Store.exists_view_of_archive s' e kept c
    exact ⟨v, e, s, ⟨he, rfl⟩, _, _, hclosed, hv, rfl⟩

def transferredRow (c : Call) (e opened : Entry) (name : Value) (stage first : Stage) (reason : Value)
    (actor : String) (s : Store) : AuditRow :=
  Note.row ⟨.entry, e.id, some e.lead, some e.pipeline, .transfer, c.actor,
    .transferred ⟨e.id, .int e.pipeline, stage.ref⟩ ⟨opened.id, name, first.ref⟩ reason⟩ actor c.now s

theorem transferRecorded_eq_ok {name note : Value} {pipeline : Int} {closed opened : Entry} :
    transferRecorded c e name pipeline reason note s = .ok ((closed, opened), s') ↔
      e.isActive ∧ s.activeEntryIn? e.lead pipeline = none ∧
        ∃ stage kept first actor, s.stage? e.stage = some stage ∧
          keptReason (.text (transferReason reason)) = .ok kept ∧ closed = e.archive kept c.now ∧
          Enrollment.newEntry c (.int e.lead) e.lead pipeline note (some e.id) (s.putEntry closed) =
            .ok (opened, first) ∧
          signature c.actor = .ok actor ∧
          s' = ((s.putEntry closed).addEntry opened).addAudit
            (transferredRow c e opened name stage first reason actor ((s.putEntry closed).addEntry opened)) := by
  unfold transferRecorded
  simp only [Transaction.bind_eq_ok, lift_eq_ok, reading_eq_ok, requireOpen_eq_ok,
    Enrollment.requireVacant_eq_ok, Store.follow_eq_ok, close_eq_ok]
  constructor
  . rintro ⟨_, _, ⟨hopen, rfl⟩, _, _, ⟨hvacant, rfl⟩, stage, _, ⟨hstage, rfl⟩, _, _, ⟨kept, hkept, rfl, rfl⟩,
      ⟨x, first⟩, _, hopened, h⟩
    obtain ⟨hnew, rfl⟩ := Enrollment.openEntry_eq_ok.mp hopened
    simp only [record_eq_ok, pure_eq_ok, Prod.mk.injEq] at h
    obtain ⟨_, _, ⟨actor, hactor, rfl⟩, ⟨rfl, rfl⟩, rfl⟩ := h
    exact ⟨hopen, hvacant, stage, kept, first, actor, hstage, hkept, rfl, hnew, hactor, rfl⟩
  . rintro ⟨hopen, hvacant, stage, kept, first, actor, hstage, hkept, rfl, hnew, hactor, rfl⟩
    refine ⟨(), s, ⟨hopen, rfl⟩, (), s, ⟨hvacant, rfl⟩, stage, s, ⟨hstage, rfl⟩, _, _, ⟨kept, hkept, rfl, rfl⟩,
      (opened, first), _, Enrollment.openEntry_eq_ok.mpr ⟨hnew, rfl⟩, ?_⟩
    simp only [record_eq_ok, pure_eq_ok]
    exact ⟨(), _, ⟨actor, hactor, rfl⟩, trivial, rfl⟩

theorem exists_shown_of_transferRecorded {name note : Value} {pipeline : Int} {closed opened : Entry}
    (hs : (s.stages.map (·.id)).Pairwise (· < ·))
    (h : transferRecorded c e name pipeline reason note s = .ok ((closed, opened), s')) :
    ∃ t, (do return ⟨← s'.view c.window c.now closed, ← s'.view c.window c.now opened⟩ :
      Except Fault Transfer) = .ok t := by
  obtain ⟨-, -, stage, kept, first, actor, -, -, rfl, hnew, -, rfl⟩ := transferRecorded_eq_ok.mp h
  obtain ⟨v', hv'⟩ := Store.exists_view_of_archive _ e kept c
  have hclosed : ((s.putEntry (e.archive kept c.now)).stages.map (·.id)).Pairwise (· < ·) := hs
  obtain ⟨v, hv⟩ := Enrollment.exists_view_of_newEntry hclosed hnew
  refine ⟨⟨v', v⟩, StageGate.bind_eq_ok.mpr ⟨v', hv', StageGate.bind_eq_ok.mpr ⟨v, ?_, rfl⟩⟩⟩
  rw [← hv]
  exact Store.view_congr rfl c.window c.now opened

theorem exists_transferring_eq_ok {entry name note : Value} (hs : s.IsSound) :
    (∃ m, transferring c entry name reason note s = .ok (m, s')) ↔
      ∃ e p closed opened, s.entry entry = .ok e ∧ Enrollment.enrollable name s = .ok p ∧
        transferRecorded c e name p.id reason note s = .ok ((closed, opened), s') := by
  simp only [transferring, Enrollment.refusingEntry, Transaction.bind_eq_ok, reading_eq_ok,
    refusingViolations_eq_ok]
  constructor
  . rintro ⟨m, e, _, ⟨he, rfl⟩, p, _, ⟨hp, rfl⟩, ⟨closed, opened⟩, _, h, -, rfl⟩
    exact ⟨e, p, closed, opened, he, hp, h⟩
  . rintro ⟨e, p, closed, opened, he, hp, h⟩
    obtain ⟨t, ht⟩ := exists_shown_of_transferRecorded hs.stageIds h
    exact ⟨t, e, s, ⟨he, rfl⟩, p, s, ⟨hp, rfl⟩, _, _, h, ht, rfl⟩

end Closing

end StageGate
