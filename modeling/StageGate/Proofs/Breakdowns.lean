import StageGate.Proofs.Bulk
import StageGate.Proofs.Failures
import StageGate.Proofs.Risks

/-!
This module contains in which ways the operations on entries can break down when they are asked for what can be
looked up and stored: an entry is not due in the calendar in the stage that it is to get into, or the criteria of
its stage cannot be judged. Nothing that only looks at entries breaks down.
-/

namespace StageGate

/-- A text, or what a column of texts keeps as one. -/
def Value.IsWritable (v : Value) : Prop :=
  ∃ kept, Column.text v = .ok kept

theorem Column.exists_renew {v : Value} (h : v.IsWritable) (kept : Option String) : ∃ new, renew kept v = .ok new := by
  unfold renew
  split
  . exact ⟨kept, rfl⟩
  . exact h

def Closing.IsKept (reason : Value) : Prop :=
  ∃ kept, keptReason reason = .ok kept

/-! ## What transactions on entries risk -/

section

open Transaction

namespace Enrollment

variable {Q : Breakdown → Prop} {c : Call} {s : Store} {pipeline : Int} {first : Stage}

theorem stagesOf_ne_nil {p : Pipeline} (h : s.validate p = .ok ()) : s.stagesOf p.id ≠ [] := by
  intro hnone
  rw [Store.validate, hnone] at h
  cases h

theorem risks_enrollable (hs : s.IsSound) (hk : s.IsConsistent) (hc : s.IsCounted)
    (hid : Column.checkInt pipeline = .ok ()) : StageGate.Risks Q (enrollable (.int pipeline) s) := by
  unfold enrollable
  refine ends_bind.mpr ⟨Store.risks_require hid, fun p _ => ?_⟩
  split
  . exact ends_error.mpr trivial
  refine ends_bind.mpr ⟨?_, fun _ _ => ends_ok p⟩
  by_cases hsome : s.rowsOf p.id = []
  . unfold Store.validate
    rw [hc.stagesOf_eq, hsome]
    exact ends_error.mpr trivial
  . exact risks_of_ok (hc.validate hs hk p hsome)

/-- The first stage of a pipeline; an entry that is not due in the calendar there breaks down as `Q` allows. -/
structure IsEntrance (Q : Breakdown → Prop) (c : Call) (s : Store) (pipeline : Int) (first : Stage) : Prop where
  head : (s.stagesOf pipeline).head? = some first
  deadline : first.deadline.isDeadline
  late : ¬c.now.Reaches first.deadline → Q .tooLarge

theorem IsEntrance.congr (h : IsEntrance Q c s pipeline first) {s' : Store} (hstages : s'.stages = s.stages) :
    IsEntrance Q c s' pipeline first := by
  refine ⟨?_, h.deadline, h.late⟩
  rw [← h.head]
  simp [Store.stagesOf, hstages]

theorem exists_isEntrance (hk : s.IsConsistent) {p : Pipeline} (hp : enrollable (.int pipeline) s = .ok p)
    (hq : ∀ first, (s.stagesOf pipeline).head? = some first → ¬c.now.Reaches first.deadline → Q .tooLarge) :
    ∃ first, IsEntrance Q c s p.id first := by
  have hid := id_of_enrollable hp
  obtain ⟨first, rest, hstages⟩ := List.exists_cons_of_ne_nil (stagesOf_ne_nil (enrollable_eq_ok.mp hp).2.2)
  have hfirst : (s.stagesOf p.id).head? = some first := by rw [hstages, List.head?_cons]
  refine ⟨first, hfirst, hk.deadlines first (Store.mem_of_head?_stagesOf hfirst).1, ?_⟩
  rw [hid] at hfirst
  exact hq first hfirst

theorem risks_requireVacant {leadName pipelineName : Value} {lead : Int} :
    StageGate.Risks Q (requireVacant leadName pipelineName lead pipeline s) := by
  unfold requireVacant
  split
  . exact ends_error.mpr trivial
  . exact ends_ok ()

section

variable {name note : Value} {lead : Int} {source : Option Int} (hc : c.IsFit) (hnote : note.IsWritable)

include hc hnote

theorem risks_newEntry (h : IsEntrance Q c s pipeline first) :
    StageGate.Risks Q (newEntry c name lead pipeline note source s) := by
  obtain ⟨kept, hkept⟩ := hnote
  rw [newEntry_universal]
  refine ends_bind.mpr ⟨risks_requireVacant, fun _ _ => ?_⟩
  rw [h.head, hkept]
  refine ends_bind (x := Health.of c.now c.now first.deadline c.window) |>.mpr ⟨?_, fun _ _ => ends_ok _⟩
  intro e he
  obtain ⟨rfl, hlate⟩ := Health.of_eq_error h.deadline hc.window he
  exact h.late hlate

theorem risks_openEntry (h : IsEntrance Q c s pipeline first) :
    (openEntry c name lead pipeline note source).Risks Q s := by
  unfold openEntry
  apply risks_reading_bind (risks_newEntry hc hnote h)
  rintro ⟨e, stage⟩ hnew
  have hadmits : s.admits e := Store.IsSound.admits_vacant (opening_of_newEntry hnew).1.vacant
  exact risks_bind (risks_addEntry hadmits) fun _ _ _ => risks_pure _

theorem risks_openRecorded {bulk : Bool} (h : IsEntrance Q c s pipeline first) :
    (openRecorded c name lead pipeline note bulk).Risks Q s := by
  unfold openRecorded
  apply risks_bind (risks_openEntry hc hnote h)
  intro r s' _
  exact risks_bind (risks_record hc.actor) fun _ _ _ => risks_pure _

theorem risks_openEach {skipExisting : Bool} {leads : List Candidate} (hs : (s.stages.map (·.id)).Pairwise (· < ·))
    (h : IsEntrance Q c s pipeline first) : (openEach c name pipeline skipExisting note leads).Risks Q s := by
  -- By induction on the leads; an enrollment leaves the stages, and so the entrance, as they were.
  induction leads generalizing s with
  | nil => exact risks_pure _
  | cons l leads ih =>
    unfold openEach
    apply risks_get_bind
    split
    . exact risks_bind (ih hs h) fun _ _ _ => risks_pure _
    . apply risks_bind (risks_refusingViolations (risks_openRecorded hc hnote h))
      intro e s' hopen
      have hstages := (exists_view_of_openRecorded hs (refusingViolations_eq_ok.mp hopen)).1
      rw [← hstages] at hs
      exact risks_bind (ih hs (h.congr hstages)) fun _ _ _ => risks_pure _

end

end Enrollment

namespace Closing

variable {Q : Breakdown → Prop} {c : Call} {s : Store} {e : Entry} {reason : Value}

theorem risks_requireOpen : StageGate.Risks Q (requireOpen e) := by
  unfold requireOpen
  split
  . exact ends_ok ()
  . exact ends_error.mpr trivial

theorem risks_close (hkept : IsKept reason) : (close c e reason).Risks Q s := by
  obtain ⟨kept, hkept⟩ := hkept
  exact risks_of_ok (close_eq_ok.mpr ⟨kept, hkept, rfl, rfl⟩)

theorem risks_stage (hs : s.IsSound) (he : e ∈ s.entries) : StageGate.Risks Q (Store.follow (s.stage? e.stage)) := by
  obtain ⟨stage, -, hstage, -⟩ := hs.exists_stage he
  exact risks_of_ok (Store.follow_eq_ok.mpr hstage)

theorem risks_archiveRecorded (hc : c.IsFit) (hs : s.IsSound) (he : e ∈ s.entries) (hkept : IsKept reason) :
    (archiveRecorded c e reason).Risks Q s := by
  unfold archiveRecorded
  apply risks_lift_bind risks_requireOpen
  intro _ _
  apply risks_reading_bind (risks_stage hs he)
  intro stage _
  apply risks_bind (risks_close hkept)
  intro closed s' _
  exact risks_bind (risks_record hc.actor) fun _ _ _ => risks_pure _

theorem risks_transferRecorded {name note : Value} {pipeline : Int} {first : Stage} (hc : c.IsFit) (hs : s.IsSound)
    (he : e ∈ s.entries) (hkept : IsKept (.text (transferReason reason))) (hnote : note.IsWritable)
    (h : Enrollment.IsEntrance Q c s pipeline first) : (transferRecorded c e name pipeline reason note).Risks Q s := by
  unfold transferRecorded
  apply risks_lift_bind risks_requireOpen
  intro _ _
  apply risks_reading_bind Enrollment.risks_requireVacant
  intro _ _
  apply risks_reading_bind (risks_stage hs he)
  intro stage _
  apply risks_bind (risks_close hkept)
  intro closed s' hclose
  obtain ⟨kept, -, rfl, rfl⟩ := close_eq_ok.mp hclose
  have hentrance : Enrollment.IsEntrance Q c (s.putEntry (e.archive kept c.now)) pipeline first := h.congr rfl
  apply risks_bind (Enrollment.risks_openEntry hc hnote hentrance)
  intro r s'' _
  exact risks_bind (risks_record hc.actor) fun _ _ _ => risks_pure _

end Closing

namespace Advancement

variable {Q : Breakdown → Prop} {c : Call} {s : Store} {e : Entry} {k : Knowledge} {target current : Stage} {note : Value}

theorem risks_resolveTarget {id : Int} (hs : s.IsSound) (hk : s.IsConsistent) (he : e ∈ s.entries)
    (hid : Column.checkInt id = .ok ()) : StageGate.Risks Q (resolveTarget e (.int id) s) := by
  by_cases hbars : Bars s e id
  . obtain ⟨reason, hname⟩ := resolveTarget_of_bars hs hk he hid hbars
    exact risks_of_refused hname
  obtain ⟨target, hfound⟩ : ∃ target, s.stage? id = some target :=
    Option.ne_none_iff_exists'.mp fun hnone => hbars (.missing hnone)
  obtain ⟨hfull, hroom⟩ := resolveTarget_of_not_bars hs hk he hid hfound hbars
  by_cases hcapacity : IsFull s target
  . exact risks_of_refused (hfull hcapacity)
  . exact risks_of_ok (hroom hcapacity)

/-- What is found out about criteria that are loaded, for an entry of which the health is known. -/
def verdictOn (c : Call) (e : Entry) (k : Knowledge) (checks : List Check) (sla : Health) (s : Store) :
    Except Fault Verdict := do
  let facts ← factsOf c e k sla s
  let flags ← s.flagsOn e.lead checks
  Verdict.of facts flags checks

theorem judge_eq (c : Call) (e : Entry) (k : Knowledge) (s : Store) : judge c e k s = (do
    let checks ← CheckSource.compileAll (s.sourcesOf e.stage)
    let sla ← s.healthOf c.window c.now e
    return (← verdictOn c e k checks sla s, sla)) := by
  rw [judge_universal]
  unfold verdictOn factsOf
  simp only [bind_assoc, pure_bind]

/-- A breakdown in judging criteria that could be loaded, on an entry of which the health could be told. -/
def Misjudges (c : Call) (e : Entry) (k : Knowledge) (s : Store) (b : Breakdown) : Prop :=
  ∃ checks sla, CheckSource.compileAll (s.sourcesOf e.stage) = .ok checks ∧ s.healthOf c.window c.now e = .ok sla ∧
    verdictOn c e k checks sla s = .error (.broken b)

theorem risks_judge (hs : s.IsSound) (hk : s.IsConsistent) (hl : s.HasLoadable) (ht : s.IsTimely)
    (hwindow : c.window.isNumber) (he : e ∈ s.entries) (hactive : e.isActive)
    (hq : ∀ b, Misjudges c e k s b → Q b) : StageGate.Risks Q (judge c e k s) := by
  obtain ⟨checks, hchecks⟩ := hl.exists_compileAll e.stage
  obtain ⟨sla, hsla⟩ := ht.exists_healthOf hs hk he hactive hwindow c.now
  rw [judge_eq, hchecks, hsla]
  refine ends_bind (x := verdictOn c e k checks sla s) |>.mpr ⟨?_, fun _ _ => ends_ok _⟩
  intro f hf
  cases f with
  | refused r => trivial
  | broken b => exact hq b ⟨checks, sla, hchecks, hsla, hf⟩

theorem risks_placed (hs : s.IsSound) (hk : s.IsConsistent) (hc : c.IsFit) (hnote : note.IsWritable)
    (htarget : target ∈ s.stages)
    (hq : ¬s.isTerminal target → ¬c.now.Reaches target.deadline → Q .tooLarge) :
    StageGate.Risks Q (placed c c.now e target note s) := by
  obtain ⟨new, hnew⟩ := Column.exists_renew hnote e.note
  have hfound : s.stage? target.id = some target := hs.stage?_eq_some.mpr ⟨htarget, rfl⟩
  rw [placed_universal]
  rw [hnew]
  change StageGate.Risks Q (if s.isTerminal target then _ else _)
  split
  . exact ends_ok _
  . next hopen =>
    refine ends_bind.mpr ⟨?_, fun _ _ => ends_ok _⟩
    unfold Store.healthOf Entry.moveTo
    rw [hfound]
    intro f hf
    obtain ⟨rfl, hlate⟩ := Health.of_eq_error (hk.deadlines target htarget) hc.window hf
    exact hq hopen hlate

theorem exists_view_of_placed (hs : s.IsSound) (hk : s.IsConsistent) {new : Entry} (hc : c.IsFit)
    (h : placed c c.now e target note s = .ok new) : ∃ v, s.view c.window c.now new = .ok v := by
  apply Store.exists_view
  intro hactive
  obtain ⟨stage, hstage, hid, due, hdue⟩ := Store.isDue_of_placed h hactive
  obtain ⟨health, hhealth⟩ := Health.exists_of (hk.deadlines stage hstage) hc.window hdue c.now
  exact ⟨stage, health, hs.stage?_eq_some.mpr ⟨hstage, hid⟩, hhealth⟩

theorem risks_move {verdict : Verdict} {sla : Health} (hs : s.IsSound) (hk : s.IsConsistent) (hc : c.IsFit)
    (hnote : note.IsWritable) (held : s.Holds e) (hcurrent : current ∈ s.stages) (htarget : target ∈ s.stages)
    (hq : ¬s.isTerminal target → ¬c.now.Reaches target.deadline → Q .tooLarge) :
    (move c e current target verdict sla note).Risks Q s := by
  rw [move_universal]
  apply risks_reading_bind (risks_placed hs hk hc hnote htarget hq)
  intro new hnew
  have hplaced := isPlaced_of_placed hnew
  have hadmits : s.admits new :=
    hs.admits held.mem hplaced.id hplaced.lead hplaced.pipeline fun _ => held.isActive
  obtain ⟨v, hv⟩ := exists_view_of_placed hs hk hc hnew
  apply risks_lift_bind (risks_of_ok (Value.lt_of_isNumber (hs.orders current hcurrent) (hs.orders target htarget)))
  intro isForward _
  apply risks_bind (risks_putEntry hadmits)
  intro _ s₁ hput
  obtain ⟨-, rfl⟩ := putEntry_eq_ok.mp hput
  apply risks_bind (risks_record hc.actor)
  intro _ s₂ hrecord
  obtain ⟨actor, -, rfl⟩ := record_eq_ok.mp hrecord
  refine risks_reading_bind (risks_of_ok (a := v) ?_) fun _ _ => risks_pure _
  rw [← hv]
  exact Store.view_congr rfl c.window c.now new

end Advancement

namespace HealthSummary

variable {Q : Breakdown → Prop} {s : Store} {window : Value} {now : Instant} {pipeline : Int}

theorem exists_readActive (hs : s.IsSound) (hk : s.IsConsistent) (ht : s.IsTimely) (hw : window.isNumber) :
    ∃ readings, readActive window now pipeline s = .ok readings := by
  apply exists_mapM
  intro e he
  rw [List.mem_filter, Bool.and_eq_true] at he
  obtain ⟨stage, health, hstage, hhealth⟩ := ht.exists_health hs hk he.1 he.2.2 hw now
  refine ⟨⟨e, stage, health⟩, ?_⟩
  unfold read
  rw [hstage]
  change (Health.of e.enteredAt now stage.deadline window >>= _) = _
  rw [hhealth]
  rfl

theorem risks_refresh (hs : s.IsSound) (hk : s.IsConsistent) (ht : s.IsTimely) (hw : window.isNumber)
    (hid : Column.checkInt pipeline = .ok ()) : (refresh window (.int pipeline) now).Risks Q s := by
  unfold refresh
  apply risks_reading_bind (Store.risks_require hid)
  intro p _
  apply risks_reading_bind (risks_of_exists (exists_readActive hs hk ht hw))
  intro readings _
  exact risks_bind risks_modify fun _ _ _ => risks_pure _

end HealthSummary

end

/-! ## What operations on entries risk -/

section

open Operation

namespace Enrollment

variable {Q : Breakdown → Prop} {c : Call} {s : Service} {pipeline : Int} {note : Value} (hs : s.IsWell) (hc : c.IsFit)

include hs hc

theorem risks_enroll {lead : Int} (hlead : Column.checkInt lead = .ok ()) (hid : Column.checkInt pipeline = .ok ())
    (hnote : note.IsWritable)
    (hq : ∀ first, (s.store.stagesOf pipeline).head? = some first → ¬c.now.Reaches first.deadline → Q .tooLarge) :
    (enroll c (.int lead) (.int pipeline) note).Risks Q s := by
  unfold enroll
  apply risks_reading_bind (Store.risks_require hlead)
  intro l _
  apply risks_reading_bind (risks_enrollable hs.sound hs.consistent hs.counted hid)
  intro p hp
  obtain ⟨first, hfirst⟩ := exists_isEntrance hs.consistent hp hq
  apply risks_holding_commit_bind (LockTable.risks_enter rfl hc.wait.check hc.ends)
    (Transaction.risks_refusingViolations (risks_openRecorded hc hnote hfirst))
  intro e s' hopen
  obtain ⟨-, hview⟩ := exists_view_of_openRecorded hs.sound.stageIds (Transaction.refusingViolations_eq_ok.mp hopen)
  exact risks_reading (risks_of_exists hview)

omit hs hc in
theorem risks_candidates {ids : List Int} {store : Store} (hfew : ids.length ≤ Store.mostVariables)
    (h : ∀ id ∈ ids, Column.checkInt id = .ok ()) :
    StageGate.Risks Q (candidates (ids.map .int) store) := by
  cases hmissing : ids.find? fun id => (store.lead? id).isNone with
  | some missing => exact risks_of_refused (candidates_of_missing hfew h hmissing)
  | none =>
    rw [List.find?_eq_none] at hmissing
    apply risks_of_ok
    apply candidates_of_known hfew h
    intro id hid hnone
    exact hmissing id hid (by simp [hnone])

omit hs hc in
theorem areOrdered_keys (ids : List Int) (pipeline : Int) :
    LockKey.areOrdered ((ids.map Value.int).map fun name => LockKey.entry name (.int pipeline)) := by
  apply LockTable.areOrdered_of_int
  intro key hkey
  rw [List.map_map, List.mem_map] at hkey
  obtain ⟨id, -, rfl⟩ := hkey
  exact ⟨id, pipeline, rfl⟩

theorem risks_enrollMany {ids : List Int} {skipExisting : Bool} (hfew : AreFew ids)
    (hids : ∀ id ∈ ids, Column.checkInt id = .ok ()) (hid : Column.checkInt pipeline = .ok ()) (hnote : note.IsWritable)
    (hq : ∀ first, (s.store.stagesOf pipeline).head? = some first → ¬c.now.Reaches first.deadline → Q .tooLarge) :
    (enrollMany c (.list (ids.map .int)) (.int pipeline) skipExisting note).Risks Q s := by
  unfold enrollMany
  apply risks_reading_bind (risks_of_ok (names_of_ints ids))
  intro names hnames
  rw [names_of_ints, Except.ok.injEq] at hnames
  subst hnames
  apply risks_reading_bind (risks_enrollable hs.sound hs.consistent hs.counted hid)
  intro p hp
  obtain ⟨first, hfirst⟩ := exists_isEntrance hs.consistent hp hq
  split
  . exact risks_pure _
  apply risks_reading_bind (risks_candidates hfew fun id h => hids id (List.mem_eraseDups.mp h))
  intro leads _
  apply risks_holding_commit_bind (LockTable.risks_enterAll (areOrdered_keys _ _) hc.wait hc.ends)
    (risks_openEach hc hnote hs.sound.stageIds hfirst)
  rintro ⟨entries, skips⟩ s' hopen
  obtain ⟨views, hviews, -⟩ := exists_views (exists_views_of_openEach hs.sound.stageIds hopen).2
  exact risks_reading_bind (risks_of_ok hviews) fun _ _ => risks_pure _

end Enrollment

namespace Closing

variable {Q : Breakdown → Prop} {c : Call} {s : Service} {entry : Int} {reason : Value} (hs : s.IsWell) (hc : c.IsFit)
  (hentry : Column.checkInt entry = .ok ())

include hs hc hentry

theorem risks_archive (hkept : IsKept reason) : (archive c (.int entry) reason).Risks Q s := by
  unfold archive
  apply risks_reading_bind (Store.risks_require hentry)
  intro e he
  apply risks_holding_commit_bind (LockTable.risks_enter rfl hc.wait.check hc.ends)
    (risks_archiveRecorded hc hs.sound (Store.mem_of_entry he) hkept)
  intro closed s' hclosed
  obtain ⟨-, stage, kept, actor, -, -, -, rfl, -⟩ := archiveRecorded_eq_ok.mp hclosed
  exact risks_reading (risks_of_exists (Store.exists_view_of_archive _ e kept c))

theorem risks_transfer {pipeline : Int} {note : Value} (hid : Column.checkInt pipeline = .ok ())
    (hkept : IsKept (.text (transferReason reason))) (hnote : note.IsWritable)
    (hq : ∀ first, (s.store.stagesOf pipeline).head? = some first → ¬c.now.Reaches first.deadline → Q .tooLarge) :
    (transfer c (.int entry) (.int pipeline) reason note).Risks Q s := by
  unfold transfer
  apply risks_reading_bind (Store.risks_require hentry)
  intro e he
  apply risks_reading_bind (Enrollment.risks_enrollable hs.sound hs.consistent hs.counted hid)
  intro p hp
  obtain ⟨first, hfirst⟩ := Enrollment.exists_isEntrance hs.consistent hp hq
  have hkeys : LockKey.areOrdered [.entry (.int e.lead) (.int e.pipeline), .entry (.int e.lead) (.int pipeline)] :=
    LockTable.areOrdered_of_int (by simp)
  apply risks_holding_commit_bind (LockTable.risks_enterAll hkeys hc.wait hc.ends)
    (Transaction.risks_refusingViolations
      (risks_transferRecorded hc hs.sound (Store.mem_of_entry he) hkept hnote hfirst))
  rintro ⟨closed, opened⟩ s' htransfer
  exact risks_reading (risks_of_exists
    (exists_shown_of_transferRecorded hs.sound.stageIds (Transaction.refusingViolations_eq_ok.mp htransfer)))

end Closing

namespace Advancement

variable {Q : Breakdown → Prop} {c : Call} {s : Service} {e : Entry} {k : Knowledge} (hs : s.IsWell) (hc : c.IsFit)

include hs hc

theorem risks_evaluateExit (he : e ∈ s.store.entries) (hactive : e.isActive)
    (hq : ∀ b, Misjudges c e k s.store b → Q b) : (evaluateExit c e k).Risks Q s := by
  obtain ⟨s', hop, -⟩ := does_evaluateExit (c := c) hs.trusty e k
  unfold Operation.Risks
  rw [hop, Transaction.result_reading]
  exact risks_judge hs.sound hs.consistent hs.loadable hs.timely hc.window he hactive hq

theorem risks_preview {entry : Int} (hentry : Column.checkInt entry = .ok ())
    (hq : ∀ e b, s.store.entry (.int entry) = .ok e → Misjudges c e k s.store b → Q b) :
    (preview c (.int entry) k).Risks Q s := by
  unfold preview
  apply risks_reading_bind (Store.risks_require hentry)
  intro e he
  unfold requireActive
  split
  . next hactive => exact risks_map (risks_evaluateExit hs hc (Store.mem_of_entry he) hactive fun b => hq e b he)
  . exact risks_throw

theorem risks_advanceHeld {target : Int} {note : Value} (he : e ∈ s.store.entries)
    (htarget : Column.checkInt target = .ok ()) (hnote : note.IsWritable)
    (hlate : ∀ stage, s.store.stage? target = some stage → ¬s.store.isTerminal stage →
      ¬c.now.Reaches stage.deadline → Q .tooLarge)
    (hq : ∀ b, Misjudges c e k s.store b → Q b) : (advanceHeld c e (.int target) k note).Risks Q s := by
  unfold advanceHeld requireActive
  split
  swap
  . exact risks_throw
  next hactive =>
  rw [pure_bind]
  apply risks_reading_bind (risks_resolveTarget hs.sound hs.consistent he htarget)
  intro stage hstage
  obtain ⟨_, _, -, -, hfound, -⟩ := of_resolveTarget hstage
  rw [Store.seek_int htarget, Except.ok.injEq] at hfound
  apply risks_reading_bind (Closing.risks_stage hs.sound he)
  intro current hcurrent
  rw [Store.follow_eq_ok] at hcurrent
  apply risks_bind (risks_evaluateExit hs hc he hactive hq)
  rintro ⟨verdict, sla⟩ s' hevaluate
  have hsame : s'.store = s.store := by
    obtain ⟨_, hop, hstore⟩ := does_evaluateExit (c := c) hs.trusty e k
    rw [hevaluate, Prod.mk.injEq] at hop
    rw [Transaction.rest_reading] at hstore
    rw [hop.2, hstore]
  dsimp only
  split
  . apply risks_commit
    rw [hsame]
    exact risks_move hs.sound hs.consistent hc hnote ⟨he, hactive⟩ (List.mem_of_find?_eq_some hcurrent)
      (List.mem_of_find?_eq_some hfound) (hlate stage hfound)
  . refine risks_reading_bind ?_ fun _ _ => risks_pure _
    rw [hsame]
    exact risks_of_exists (hs.timely.exists_view hs.sound hs.consistent he hc.window c.now)

theorem risks_advance {entry target : Int} {note : Value} (hentry : Column.checkInt entry = .ok ())
    (htarget : Column.checkInt target = .ok ()) (hnote : note.IsWritable)
    (hlate : ∀ stage, s.store.stage? target = some stage → ¬s.store.isTerminal stage →
      ¬c.now.Reaches stage.deadline → Q .tooLarge)
    (hq : ∀ e b, s.store.entry (.int entry) = .ok e → Misjudges c e k s.store b → Q b) :
    (advance c (.int entry) (.int target) k note).Risks Q s := by
  unfold advance
  apply risks_reading_bind (Store.risks_require hentry)
  intro e he
  obtain ⟨left, hleft, hcheck⟩ := hc.wait.left
  have hheld : ∀ locks, (advanceHeld c e (.int target) k note).Risks Q { s with locks } := fun locks =>
    risks_advanceHeld (hs.locked locks) hc (Store.mem_of_entry he) htarget hnote hlate fun b => hq e b he
  apply risks_reading_bind (risks_of_ok hleft)
  intro _ h
  rw [hleft, Except.ok.injEq] at h
  subst h
  apply risks_holding (LockTable.risks_enter rfl hc.wait.check hc.ends)
  intro locks
  unfold cappedStage?
  apply risks_reading_bind
  . rw [Store.seek_int htarget]
    exact ends_ok _
  intro capped _
  cases capped with
  | none => exact hheld locks
  | some stage =>
    apply risks_holding (LockTable.risks_enter rfl hcheck (Wait.ne_null_of_left hc.ends hleft))
    exact hheld

end Advancement

namespace Administration

variable {Q : Breakdown → Prop} {s : Service} {window : Value} {pipeline : Int} {now : Instant}

theorem risks_healthSummary (hs : s.IsWell) (hw : window.isNumber) (hid : Column.checkInt pipeline = .ok ()) :
    (healthSummary window (.int pipeline) now).Risks Q s := by
  rw [healthSummary_eq]
  apply risks_commit_bind (HealthSummary.risks_refresh hs.sound hs.consistent hs.timely hw hid)
  rintro ⟨p, readings⟩ s' hrefresh
  have hsound := hs.sound.steps ((HealthSummary.leads_refresh hs.sound).of_ok hrefresh)
  exact risks_reading_bind (risks_of_exists (HealthSummary.exists_stagesInOrder hsound p)) fun _ _ => risks_pure _

end Administration

end

/-! ## Commands that are fit -/

namespace Command

open Operation

variable {env : Environment} {s : Service}

theorem exists_activeViews (hs : s.IsWell) {c : Call} (hc : c.window.isNumber) {pipeline : Int}
    (hid : Column.checkInt pipeline = .ok ()) : ∃ views, activeViews c (.int pipeline) s.store = .ok views := by
  unfold activeViews
  rw [Store.rowId?_int hid]
  apply exists_mapM
  intro e he
  unfold Store.activeEntries at he
  rw [Listing.mem_inOrder, List.mem_filter] at he
  exact hs.timely.exists_view hs.sound hs.consistent he.1 hc c.now

/-- Commands on entries of which every id, note and reason fits into its column, by a caller who is fit. -/
inductive IsFit (env : Environment) : Command → Prop where
  | enroll {caller : Caller} {lead pipeline : Int} {note : Value} (call : (run.call env caller).IsFit)
      (lead_fits : Column.checkInt lead = .ok ()) (pipeline_fits : Column.checkInt pipeline = .ok ())
      (note_fits : note.IsWritable) : IsFit env (.enroll caller (.int lead) (.int pipeline) note)
  | enrollMany {caller : Caller} {leads : List Int} {pipeline : Int} {skipExisting : Bool} {note : Value}
      (call : (run.call env caller).IsFit) (leads_few : AreFew leads)
      (leads_fit : ∀ lead ∈ leads, Column.checkInt lead = .ok ()) (pipeline_fits : Column.checkInt pipeline = .ok ())
      (note_fits : note.IsWritable) :
      IsFit env (.enrollMany caller (.list (leads.map .int)) (.int pipeline) skipExisting note)
  | transfer {caller : Caller} {entry pipeline : Int} {reason note : Value} (call : (run.call env caller).IsFit)
      (entry_fits : Column.checkInt entry = .ok ()) (pipeline_fits : Column.checkInt pipeline = .ok ())
      (reason_fits : Closing.IsKept (.text (Closing.transferReason reason))) (note_fits : note.IsWritable) :
      IsFit env (.transfer caller (.int entry) (.int pipeline) reason note)
  | advance {caller : Caller} {entry stage : Int} {knowledge : Advancement.Knowledge} {note : Value}
      (call : (run.call env caller).IsFit) (entry_fits : Column.checkInt entry = .ok ())
      (stage_fits : Column.checkInt stage = .ok ()) (note_fits : note.IsWritable) :
      IsFit env (.advance caller (.int entry) (.int stage) knowledge note)
  | archive {caller : Caller} {entry : Int} {reason : Value} (call : (run.call env caller).IsFit)
      (entry_fits : Column.checkInt entry = .ok ()) (reason_fits : Closing.IsKept reason) :
      IsFit env (.archive caller (.int entry) reason)
  | getEntry {caller : Caller} {entry : Int} (window : env.window.isNumber)
      (entry_fits : Column.checkInt entry = .ok ()) : IsFit env (.getEntry caller (.int entry))
  | listActive {caller : Caller} {pipeline : Int} (window : env.window.isNumber)
      (pipeline_fits : Column.checkInt pipeline = .ok ()) : IsFit env (.listActive caller (.int pipeline))
  | healthSummary {caller : Caller} {pipeline : Int} (window : env.window.isNumber)
      (pipeline_fits : Column.checkInt pipeline = .ok ()) : IsFit env (.healthSummary caller (.int pipeline))

/-- What commands that are fit break down in, for all that is known of a store that is reached. -/
inductive Spoils (env : Environment) (s : Store) : Command → Breakdown → Prop where
  | enroll {caller : Caller} {lead note : Value} {pipeline : Int} {first : Stage}
      (entrance : (s.stagesOf pipeline).head? = some first) (late : ¬(run.call env caller).now.Reaches first.deadline) :
      Spoils env s (.enroll caller lead (.int pipeline) note) .tooLarge
  | enrollMany {caller : Caller} {leads note : Value} {pipeline : Int} {skipExisting : Bool} {first : Stage}
      (entrance : (s.stagesOf pipeline).head? = some first) (late : ¬(run.call env caller).now.Reaches first.deadline) :
      Spoils env s (.enrollMany caller leads (.int pipeline) skipExisting note) .tooLarge
  | transfer {caller : Caller} {entry reason note : Value} {pipeline : Int} {first : Stage}
      (entrance : (s.stagesOf pipeline).head? = some first) (late : ¬(run.call env caller).now.Reaches first.deadline) :
      Spoils env s (.transfer caller entry (.int pipeline) reason note) .tooLarge
  | advance {caller : Caller} {entry note : Value} {id : Int} {knowledge : Advancement.Knowledge} {target : Stage}
      (found : s.stage? id = some target) (opens : ¬s.isTerminal target)
      (late : ¬(run.call env caller).now.Reaches target.deadline) :
      Spoils env s (.advance caller entry (.int id) knowledge note) .tooLarge
  | judgement {caller : Caller} {entry stage note : Value} {knowledge : Advancement.Knowledge} {e : Entry}
      {b : Breakdown} (found : s.entry entry = .ok e)
      (misjudged : Advancement.Misjudges (run.call env caller) e knowledge s b) :
      Spoils env s (.advance caller entry stage knowledge note) b

theorem risks_run (hs : s.IsWell) {k : Command} (hk : k.IsFit env) : (k.run env).Risks (k.Spoils env s.store) s := by
  cases hk with
  | enroll call lead_fits pipeline_fits note_fits =>
    exact risks_map (Enrollment.risks_enroll hs call lead_fits pipeline_fits note_fits fun _ => .enroll)
  | enrollMany call leads_few leads_fit pipeline_fits note_fits =>
    apply risks_map
    exact Enrollment.risks_enrollMany hs call leads_few leads_fit pipeline_fits note_fits fun _ => .enrollMany
  | transfer call entry_fits pipeline_fits reason_fits note_fits =>
    exact risks_map (Closing.risks_transfer hs call entry_fits pipeline_fits reason_fits note_fits fun _ => .transfer)
  | advance call entry_fits stage_fits note_fits =>
    exact risks_map (Advancement.risks_advance hs call entry_fits stage_fits note_fits (fun _ => .advance)
      fun _ _ => .judgement)
  | archive call entry_fits reason_fits => exact risks_map (Closing.risks_archive hs call entry_fits reason_fits)
  | getEntry window entry_fits =>
    apply risks_map
    apply risks_reading
    refine ends_bind.mpr ⟨Store.risks_require entry_fits, fun e he => risks_of_exists ?_⟩
    exact hs.timely.exists_view hs.sound hs.consistent (Store.mem_of_entry he) window _
  | listActive window pipeline_fits =>
    exact risks_map (risks_reading (risks_of_exists (exists_activeViews hs window pipeline_fits)))
  | healthSummary window pipeline_fits => exact risks_map (Administration.risks_healthSummary hs window pipeline_fits)

end Command

namespace Service

/--
The health of a stay can be told exactly if the day when it is due is in the calendar, and of an active entry it
always can. A command on entries that is fit breaks down only if it would place an entry in a stage where it is not
due in the calendar, or if the criteria of the stage that it is to leave cannot be judged.
-/
theorem reached_deadlines (ts : List Turn) :
    let s := reached ts
    (∀ stage ∈ s.store.stages, ∀ window : Value, window.isNumber → ∀ entered now : Instant,
      (∃ health, Health.of entered now stage.deadline window = .ok health) ↔ entered.Reaches stage.deadline) ∧
    (∀ e ∈ s.store.entries, e.isActive → ∀ window : Value, window.isNumber → ∀ now : Instant,
      ∃ health, s.store.healthOf window now e = .ok health) ∧
    ∀ t : Turn, t.command.IsFit t.env → ∀ b, s.answer t = .error (.broken b) →
      t.command.Spoils t.env s.store b := by
  have hs := isWell_reached ts
  refine ⟨?_, ?_, ?_⟩
  . intro stage hstage window hw entered now
    exact Health.exists_of_iff (hs.consistent.deadlines stage hstage) hw now
  . intro e he hactive window hw now
    exact hs.timely.exists_healthOf hs.sound hs.consistent he hactive hw now
  . intro t ht b hb
    exact Command.risks_run hs ht (.broken b) hb

def atWork : Environment :=
  ⟨⟨63908038800000000⟩, .int 1, .int 0⟩

/-- A lead, and a pipeline that is valid; what gets into its first stage is due in nearly fourteen thousand years. -/
def distant : List Turn :=
  let stages : Value := .list [.object [("name", .text "New"), ("sla_deadline_days", .int 5000000)]]
  Turn.allIn atWork
    [.createLead [("name", .text "Ada")],
      .createPipeline (.text "system") (.object [("name", .text "Sales"), ("stages", stages)])] (by decide)

def enrollment : Command :=
  .enroll ⟨.text "system", none, .null⟩ (.int 1) (.int 1) .null

theorem isFit_enrollment : enrollment.IsFit atWork := by
  have hwait : Wait.IsValid (.int 0) := ⟨by decide +kernel, .int 0, by decide +kernel, by decide +kernel⟩
  exact .enroll ⟨⟨"system", rfl⟩, Value.isNumber_int 1, hwait, by decide⟩ rfl rfl ⟨none, rfl⟩

theorem reached_deadlines_distant :
    (reached distant).answer ⟨atWork, enrollment, rfl⟩ = .error (.broken .tooLarge) ∧
      enrollment.Spoils atWork (reached distant).store .tooLarge := by
  have hbroken : (reached distant).answer ⟨atWork, enrollment, rfl⟩ = .error (.broken .tooLarge) := by
    decide +kernel
  exact ⟨hbroken, (reached_deadlines distant).2.2 ⟨atWork, enrollment, rfl⟩ isFit_enrollment .tooLarge hbroken⟩

/-- What is valid is not kept from breaking down, however well it is asked for. -/
theorem enrollment_beyond_calendar :
    (reached distant).answer ⟨atWork, .validatePipeline (.int 1), rfl⟩ = .ok (.object [("valid", .bool true)]) ∧
      ¬∀ (ts : List Turn) (t : Turn), t.command.IsFit t.env → ∀ b, (reached ts).answer t ≠ .error (.broken b) := by
  refine ⟨by decide +kernel, ?_⟩
  intro h
  apply h distant ⟨atWork, enrollment, rfl⟩ isFit_enrollment .tooLarge
  decide +kernel

end Service

end StageGate
