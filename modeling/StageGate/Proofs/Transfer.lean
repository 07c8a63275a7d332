import StageGate.Proofs.Consistency
import StageGate.Proofs.Transactions

/-!
This module contains that a transfer to another pipeline is an archive and an enrollment in one: it succeeds
exactly when the two would succeed one after the other, and leaves the entries that they would leave.
-/

namespace StageGate

open Transaction Operation

namespace Enrollment

variable {c : Call} {s : Store} {e x : Entry} {name note : Value} {lead q : Int} {first : Stage}

theorem newEntry_from_iff {source : Option Int} :
    newEntry c name lead q note source s = .ok (x, first) ↔
      ∃ y, newEntry c name lead q note none s = .ok (y, first) ∧ x = { y with transferredFrom := source } := by
  simp only [newEntry_eq_ok, fresh]
  grind

theorem vacant_archive_iff (hs : s.IsSound) (he : e ∈ s.entries) (hq : q ≠ e.pipeline) (kept : Option String)
    (now : Instant) :
    (s.putEntry (e.archive kept now)).activeEntryIn? lead q = none ↔ s.activeEntryIn? lead q = none := by
  rw [Store.activeEntryIn?_eq_none, Store.activeEntryIn?_eq_none]
  constructor
  . intro h x hx hactive hlead
    by_cases hid : x.id = e.id
    . rw [Store.eq_of_id_eq hs.entryIds hx he hid]
      exact hq.symm
    . exact h x (Store.mem_putEntry_of_ne hx hid) hactive hlead
  . intro h x hx hactive hlead
    rcases Store.mem_putEntry hx with rfl | ⟨hx, -⟩
    . exact hq.symm
    . exact h x hx hactive hlead

/-- An entry that is archived takes up no place in another pipeline, so the new entry is the same after it. -/
theorem newEntry_archive_iff {source : Option Int} (hs : s.IsSound) (he : e ∈ s.entries) (hq : q ≠ e.pipeline)
    (kept : Option String) (now : Instant) :
    newEntry c name lead q note source (s.putEntry (e.archive kept now)) = .ok (x, first) ↔
      newEntry c name lead q note source s = .ok (x, first) := by
  rw [newEntry_eq_ok, newEntry_eq_ok, vacant_archive_iff hs he hq]
  simp only [fresh, Store.putEntry_ids]
  rfl

end Enrollment

namespace Closing

open Enrollment

/-- The reason that is kept of an entry from which a lead was transferred. -/
def reasonFor (reason : Option String) : String :=
  if reason.getD "" = "" then "transferred" else "transferred: " ++ reason.getD ""

theorem transferReason_ofText? (reason : Option String) :
    transferReason (.ofText? reason) = reasonFor reason := by
  cases reason with
  | none => rfl
  | some reason =>
    change transferReason (.text reason) = _
    by_cases h : reason = "" <;> simp [transferReason, reasonFor, Value.isTrue, Value.toText, h]

/-- What a transfer has to find in a store. -/
structure Passage (c : Call) (s : Store) (e : Entry) (q : Int) (reason : Option String) (note : Value) where
  stage : Stage
  first : Stage
  kept : Option String
  opened : Entry
  actor : String
  isActive : e.isActive
  isEnrollable : ∃ p, enrollable (.int q) s = .ok p
  here : s.stage? e.stage = some stage
  isKept : keptReason (.text (reasonFor reason)) = .ok kept
  isOpened : newEntry c (.int e.lead) e.lead q note none s = .ok (opened, first)
  isSigned : signature c.actor = .ok actor

namespace Passage

section

variable {c : Call} {s : Store} {e : Entry} {q : Int} {reason : Option String} {note : Value}
  (t : Passage c s e q reason note)

def closed : Entry :=
  e.archive t.kept c.now

def archived : Store :=
  (s.putEntry t.closed).addAudit
    (archivedRow c e t.stage (.text (reasonFor reason)) t.actor (s.putEntry t.closed))

def enrolled : Store :=
  (t.archived.addEntry t.opened).addAudit
    (enrolledRow c t.opened t.first false t.actor (t.archived.addEntry t.opened))

def moved : Entry :=
  { t.opened with transferredFrom := some e.id }

def transferred : Store :=
  ((s.putEntry t.closed).addEntry t.moved).addAudit
    (transferredRow c e t.moved (.int q) t.stage t.first (.ofText? reason) t.actor
      ((s.putEntry t.closed).addEntry t.moved))

end

end Passage

section

variable {c : Call} {s : Service} {e : Entry} {q : Int} {reason : Option String} {entry note : Value}

theorem transfer_ok_iff (hs : s.store.IsSound) (hc : c.IsUnhindered s) (he : s.store.entry entry = .ok e)
    (hq : q ≠ e.pipeline) {s' : Store} :
    (transfer c entry (.int q) (.ofText? reason) note s).1.isOk ∧
        (transfer c entry (.int q) (.ofText? reason) note s).2.store = s' ↔
      ∃ t : Passage c s.store e q reason note, t.transferred = s' := by
  have hmem := Store.mem_of_entry he
  rw [(does_transfer hs hc entry q (.ofText? reason) note).ok_iff, exists_transferring_eq_ok hs]
  constructor
  . rintro ⟨e', p, closed, opened, he', hp, h⟩
    rw [he] at he'
    cases he'
    rw [id_of_enrollable hp, transferRecorded_eq_ok, transferReason_ofText?] at h
    obtain ⟨hactive, -, stage, kept, first, actor, hstage, hkept, rfl, hnew, hactor, rfl⟩ := h
    rw [newEntry_archive_iff hs hmem hq, newEntry_from_iff] at hnew
    obtain ⟨y, hy, rfl⟩ := hnew
    exact ⟨⟨stage, first, kept, y, actor, hactive, ⟨p, hp⟩, hstage, hkept, hy, hactor⟩, rfl⟩
  . rintro ⟨t, rfl⟩
    obtain ⟨p, hp⟩ := t.isEnrollable
    refine ⟨e, p, t.closed, t.moved, he, hp, ?_⟩
    rw [id_of_enrollable hp, transferRecorded_eq_ok, transferReason_ofText?]
    refine ⟨t.isActive, (newEntry_eq_ok.mp t.isOpened).1, t.stage, t.kept, t.first, t.actor, t.here, t.isKept, rfl,
      ?_, t.isSigned, rfl⟩
    rw [Passage.closed, newEntry_archive_iff hs hmem hq, newEntry_from_iff]
    exact ⟨t.opened, t.isOpened, rfl⟩

theorem archive_ok_iff (hc : c.IsUnhindered s) (he : s.store.entry entry = .ok e) {reason : Value} {s' : Store} :
    (archive c entry reason s).1.isOk ∧ (archive c entry reason s).2.store = s' ↔
      ∃ closed, archiveRecorded c e reason s.store = .ok (closed, s') := by
  rw [(does_archive hc entry reason).ok_iff, exists_archiving_eq_ok]
  constructor
  . rintro ⟨e', closed, he', h⟩
    rw [he] at he'
    cases he'
    exact ⟨closed, h⟩
  . rintro ⟨closed, h⟩
    exact ⟨e, closed, he, h⟩

theorem enroll_ok_iff (hs : s.store.IsSound) (hc : c.IsUnhindered s) {l : Lead}
    (hl : s.store.lead (.int l.id) = .ok l) {s' : Store} :
    (enroll c (.int l.id) (.int q) note s).1.isOk ∧ (enroll c (.int l.id) (.int q) note s).2.store = s' ↔
      (∃ p, enrollable (.int q) s.store = .ok p) ∧
        ∃ opened, openRecorded c (.int l.id) l.id q note false s.store = .ok (opened, s') := by
  rw [(does_enroll hs hc rfl rfl note).ok_iff, exists_enrolling_eq_ok hs]
  constructor
  . rintro ⟨l', p, opened, hl', hp, h⟩
    rw [hl] at hl'
    cases hl'
    rw [id_of_enrollable hp] at h
    exact ⟨⟨p, hp⟩, opened, h⟩
  . rintro ⟨⟨p, hp⟩, opened, h⟩
    refine ⟨l, p, opened, hl, hp, ?_⟩
    rw [id_of_enrollable hp]
    exact h

/-- An archive and an enrollment after it, and the store that each of them leaves. -/
structure Follow (c : Call) (entry : Value) (e : Entry) (q : Int) (reason note : Value) (s : Service)
    (s₁ s₂ : Store) : Prop where
  archived : (archive c entry reason s).1.isOk
  first : (archive c entry reason s).2.store = s₁
  enrolled : (enroll c (.int e.lead) (.int q) note (archive c entry reason s).2).1.isOk
  second : (enroll c (.int e.lead) (.int q) note (archive c entry reason s).2).2.store = s₂

theorem isUnhindered_archive (hc : c.IsUnhindered s) (entry reason : Value) :
    c.IsUnhindered (archive c entry reason s).2 := by
  have hlocks : (archive c entry reason s).2.locks = s.locks :=
    ((returns_archive c entry reason) s.locks).after s rfl
  refine ⟨?_, hc.wait⟩
  rw [hlocks]
  exact hc.free

theorem enroll_archived_iff {s : Store} {after : Service} {kept : Option String} {row : AuditRow} {s' : Store}
    (hs : s.IsSound) (hk : s.IsConsistent) (he : e ∈ s.entries) (hq : q ≠ e.pipeline)
    (hsound : after.store.IsSound) (hc : c.IsUnhindered after)
    (hafter : after.store = (s.putEntry (e.archive kept c.now)).addAudit row) :
    (enroll c (.int e.lead) (.int q) note after).1.isOk ∧
        (enroll c (.int e.lead) (.int q) note after).2.store = s' ↔
      (∃ p, enrollable (.int q) s = .ok p) ∧
        ∃ opened first actor, newEntry c (.int e.lead) e.lead q note none s = .ok (opened, first) ∧
          signature c.actor = .ok actor ∧
          (after.store.addEntry opened).addAudit
            (enrolledRow c opened first false actor (after.store.addEntry opened)) = s' := by
  obtain ⟨l, hl, hlead⟩ := hk.exists_lead he
  have hfound : after.store.lead (.int l.id) = .ok l := by
    rw [hafter, hlead]
    exact hl
  have hnew : ∀ opened first, newEntry c (.int e.lead) e.lead q note none after.store = .ok (opened, first) ↔
      newEntry c (.int e.lead) e.lead q note none s = .ok (opened, first) := by
    intro opened first
    rw [hafter]
    exact newEntry_archive_iff hs he hq kept c.now
  have hopen : enrollable (.int q) after.store = enrollable (.int q) s := by
    rw [hafter]
    rfl
  rw [← hlead, enroll_ok_iff hsound hc hfound, hopen, hlead]
  simp only [openRecorded_eq_ok, hnew]
  grind

theorem follow_iff (hs : s.store.IsSound) (hk : s.store.IsConsistent) (hc : c.IsUnhindered s)
    (he : s.store.entry entry = .ok e) (hq : q ≠ e.pipeline) {s₁ s₂ : Store} :
    Follow c entry e q (.text (reasonFor reason)) note s s₁ s₂ ↔
      ∃ t : Passage c s.store e q reason note, t.archived = s₁ ∧ t.enrolled = s₂ := by
  have hmem := Store.mem_of_entry he
  have hc' := isUnhindered_archive hc entry (.text (reasonFor reason))
  constructor
  . rintro ⟨harchived, hfirst, henrolled, hsecond⟩
    obtain ⟨_, h⟩ := (archive_ok_iff hc he).mp ⟨harchived, hfirst⟩
    obtain ⟨hactive, stage, kept, actor, hstage, hkept, hactor, rfl, hafter⟩ := archiveRecorded_eq_ok.mp h
    have hsound : s₁.IsSound := by
      rw [hafter]
      exact (hs.archive ⟨hmem, hactive⟩ hkept c.now).addAudit rfl
    rw [← hfirst] at hsound hafter
    obtain ⟨hopen, opened, first, actor', hnew, hactor', hstore⟩ :=
      (enroll_archived_iff hs hk hmem hq hsound hc' hafter).mp ⟨henrolled, hsecond⟩
    rw [hactor] at hactor'
    cases hactor'
    refine ⟨⟨stage, first, kept, opened, actor, hactive, hopen, hstage, hkept, hnew, hactor⟩, ?_, ?_⟩
    . rw [← hfirst, hafter]
      rfl
    . rw [← hstore, hafter]
      rfl
  . rintro ⟨t, rfl, rfl⟩
    have harchived := (archive_ok_iff hc he).mpr ⟨t.closed, archiveRecorded_eq_ok.mpr ⟨t.isActive, t.stage, t.kept,
      t.actor, t.here, t.isKept, t.isSigned, rfl, rfl⟩⟩
    have hsound : t.archived.IsSound := (hs.archive ⟨hmem, t.isActive⟩ t.isKept c.now).addAudit rfl
    have hafter := harchived.2
    have hsound : (archive c entry (.text (reasonFor reason)) s).2.store.IsSound := by
      rw [hafter]
      exact hsound
    have henrolled := (enroll_archived_iff hs hk hmem hq hsound hc' hafter).mpr
      ⟨t.isEnrollable, t.opened, t.first, t.actor, t.isOpened, t.isSigned, rfl⟩
    refine ⟨harchived.1, hafter, henrolled.1, ?_⟩
    rw [henrolled.2, hafter]
    rfl

/-! ## The own pipeline -/

theorem not_isOk_transfer_home (hs : s.store.IsSound) (hc : c.IsUnhindered s) (he : s.store.entry entry = .ok e)
    (reason : Value) : ¬(transfer c entry (.int e.pipeline) reason note s).1.isOk := by
  intro hok
  obtain ⟨_, h⟩ := (does_transfer hs hc entry e.pipeline reason note).ok_iff.mp ⟨hok, rfl⟩
  obtain ⟨e', p, closed, opened, he', hp, h⟩ := (exists_transferring_eq_ok hs).mp ⟨_, h⟩
  rw [he] at he'
  cases he'
  rw [id_of_enrollable hp, transferRecorded_eq_ok] at h
  obtain ⟨hactive, hvacant, -⟩ := h
  exact Store.activeEntryIn?_eq_none.mp hvacant e (Store.mem_of_entry he) hactive rfl rfl

theorem activeEntryIn?_eq_some (hs : s.store.IsSound) (he : e ∈ s.store.entries) (hactive : e.isActive) :
    s.store.activeEntryIn? e.lead e.pipeline = some e := by
  cases hx : s.store.activeEntryIn? e.lead e.pipeline with
  | none => exact absurd rfl (Store.activeEntryIn?_eq_none.mp hx e he hactive rfl)
  | some x =>
    have hmem := List.mem_of_find?_eq_some hx
    have hfound := List.find?_some hx
    simp only [Bool.and_eq_true, decide_eq_true_eq] at hfound
    rw [hs.single x hmem e he hfound.2 hactive hfound.1.1 hfound.1.2]

theorem transfer_home (hs : s.store.IsSound) (hc : c.IsUnhindered s) (he : s.store.entry entry = .ok e)
    (hactive : e.isActive) {p : Pipeline} (hp : enrollable (.int e.pipeline) s.store = .ok p) (reason : Value) :
    (transfer c entry (.int e.pipeline) reason note s).1 =
      .error (.refused (.alreadyEnrolled (.int e.lead) (.int e.pipeline) (.int e.id) none)) := by
  have hvacant : requireVacant (.int e.lead) (.int e.pipeline) e.lead e.pipeline s.store =
      .error (.refused (.alreadyEnrolled (.int e.lead) (.int e.pipeline) (.int e.id) none)) := by
    rw [requireVacant, activeEntryIn?_eq_some hs (Store.mem_of_entry he) hactive]
  have hopen : requireOpen e = .ok () := requireOpen_eq_ok.mpr hactive
  have htransfer : transferring c entry (.int e.pipeline) reason note s.store =
      .error (.refused (.alreadyEnrolled (.int e.lead) (.int e.pipeline) (.int e.id) none)) := by
    unfold transferring
    rw [reading_bind_of_ok he, reading_bind_of_ok hp]
    apply Transaction.bind_of_error
    apply refusingViolations_of_refused
    unfold transferRecorded
    rw [lift_bind_of_ok hopen, id_of_enrollable hp]
    exact reading_bind_of_error hvacant _
  obtain ⟨after, hanswer, -⟩ := (does_transfer hs hc entry e.pipeline reason note).of_error htransfer
  rw [hanswer]

end

end Closing

namespace Service

def relocation : List Turn :=
  -- A lead in the first of two pipelines.
  let stages : Value := .list [.object [("name", .text "New")], .object [("name", .text "Won")]]
  Turn.allIn ⟨⟨63908038800000000⟩, .int 1, .int 0⟩
    [.createLead [("name", .text "Ada")],
      .createPipeline (.text "system") (.object [("name", .text "Sales"), ("stages", stages)]),
      .createPipeline (.text "system") (.object [("name", .text "Care"), ("stages", stages)]),
      .enroll ⟨.text "system", none, .null⟩ (.int 1) (.int 1) .null] (by decide)

end Service

end StageGate
