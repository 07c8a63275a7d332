import Mathlib
import StageGate.Proofs.Commands

/-!
This module contains the replay of the audit trail: row after row, what is said about entries is done
again, and in the end that gives the entries that are there.
-/

namespace StageGate

structure Outline where
  id : Int
  lead : Int
  pipeline : Int
  stage : Int
  status : Status
  enrolledAt : Instant
  enteredAt : Instant
  closedAt : Option Instant
  deriving DecidableEq

def Entry.outline (e : Entry) : Outline :=
  ⟨e.id, e.lead, e.pipeline, e.stage, e.status, e.enrolledAt, e.enteredAt, e.closedAt⟩

namespace Outline

def settle (o : Outline) (status : Status) (time : Instant) : Outline :=
  { o with status, closedAt := if status = .active then none else some time }

def enter (o : Outline) (stage : Int) (time : Instant) : Outline :=
  { o with stage, enteredAt := time }

def opened (id lead pipeline stage : Int) (status : Status) (time : Instant) : Outline :=
  ⟨id, lead, pipeline, stage, status, time, time, none⟩

end Outline

namespace Replay

/-! ## Reading documents -/

def stageId? (v : Value) : Option Int :=
  (v.get "id").asInt?

def status? (v : Value) : Option Status :=
  ((v.get "status").get "new").asText?.map Status.ofName

def pipelineId? (v : Value) : Option Int :=
  (Store.rowId? v).toOption.join

/-! ## Doing it again -/

def change (id : Int) (f : Outline → Outline) (os : List Outline) : Option (List Outline) :=
  if os.any fun o => o.id = id && o.status = .active then
    some (os.map fun o => if o.id = id then f o else o)
  else
    none

def add (new : Outline) (os : List Outline) : Option (List Outline) :=
  if os.any (·.id = new.id) then none else some (os ++ [new])

/-- Does again what a row says; rows about other things than entries say nothing. -/
def row (os : List Outline) (r : AuditRow) : Option (List Outline) :=
  if r.subject ≠ .entry then some os
  else do
    let id ← r.subjectId.toInt?
    let diff ← r.change.toValue.toOption
    match r.action with
    | .enroll =>
      let lead ← r.lead.asInt?
      let pipeline ← r.pipeline.asInt?
      let stage ← stageId? ((diff.get "stage").get "new")
      let status ← status? diff
      add (.opened id lead pipeline stage status r.writtenAt) os
    | .advance | .regress | .complete =>
      let stage ← stageId? ((diff.get "stage").get "new")
      let status ← status? diff
      change id (fun o => (o.enter stage r.writtenAt).settle status r.writtenAt) os
    | .archive =>
      let status ← status? diff
      change id (·.settle status r.writtenAt) os
    | .transfer =>
      let source := diff.get "source"
      let destination := diff.get "destination"
      let closed ← change id (·.settle (← status? source) r.writtenAt) os
      let new ← (destination.get "entry_id").asInt?
      let lead ← r.lead.asInt?
      let pipeline ← pipelineId? (destination.get "pipeline_id")
      let stage ← stageId? (destination.get "stage")
      let status ← status? destination
      add (.opened new lead pipeline stage status r.writtenAt) closed
    | _ => none

def rows (os : List Outline) (rs : List AuditRow) : Option (List Outline) :=
  rs.foldlM row os

/-! ## Rows that are written -/

section

variable {os : List Outline} {id lead pipeline : Int} {actor : Value} {signer : String} {time : Instant}
  {s : Store}

open Transaction

theorem row_enrolled {stage : StageRef} {bulk : Bool} :
    row os (Note.row ⟨.entry, id, some lead, some pipeline, .enroll, actor, .enrolled stage bulk⟩ signer time s) =
      add (.opened id lead pipeline stage.id .active time) os := by
  simp [row, Note.row, Change.toValue, Change.statusPair, Change.pair, StageRef.toValue, stageId?, status?,
    Except.toOption, Value.asInt?, Value.asText?, Value.ofInt?, Value.ofOption, Status.name, Status.ofName]

theorem row_moved {outcome : Advancement.MoveOutcome} {old new : StageRef} {status : Status} {sla : Health}
    {warnings : List Value} (hstatus : Status.ofName status.name = status) :
    row os (Note.row ⟨.entry, id, some lead, some pipeline, outcome.action, actor,
      .moved old new status sla warnings⟩ signer time s) =
      change id (fun o => (o.enter new.id time).settle status time) os := by
  cases outcome <;>
    simp [row, Note.row, Change.toValue, Change.statusPair, Change.pair, StageRef.toValue, stageId?, status?,
      Except.toOption, Value.asInt?, Value.asText?, Advancement.MoveOutcome.action, hstatus]

theorem row_archived {stage : StageRef} {reason : Value} :
    row os (Note.row ⟨.entry, id, some lead, some pipeline, .archive, actor, .archived stage reason⟩
      signer time s) = change id (·.settle .archived time) os := by
  simp [row, Note.row, Change.toValue, Change.statusPair, Change.pair, status?, Except.toOption,
    Value.asText?, Status.name, Status.ofName]

theorem row_transferred {source destination : TransferEnd} {reason : Value} {target : Int}
    (htarget : Store.rowId? destination.pipeline = .ok (some target)) :
    row os (Note.row ⟨.entry, id, some lead, some pipeline, .transfer, actor,
      .transferred source destination reason⟩ signer time s) = (do
        add (.opened destination.entry lead target destination.stage.id .active time)
          (← change id (·.settle .archived time) os)) := by
  simp [row, Note.row, Change.toValue, Change.endValue, Change.statusPair, Change.pair, StageRef.toValue,
    stageId?, status?, pipelineId?, htarget, Except.toOption, Value.asInt?, Value.asText?, Value.ofInt?,
    Value.ofOption, Status.name, Status.ofName]

end

/-! ## Entries that are written -/

section

variable {s : Store}

theorem change_eq_putEntry {e new : Entry} {f : Outline → Outline} (hs : s.IsSound) (held : s.Holds e)
    (hid : new.id = e.id) (hf : f e.outline = new.outline) :
    change e.id f (s.entries.map Entry.outline) = some ((s.putEntry new).entries.map Entry.outline) := by
  unfold change
  have hthere : (s.entries.map Entry.outline).any fun o => o.id = e.id && o.status = .active := by
    rw [List.any_eq_true]
    refine ⟨e.outline, List.mem_map_of_mem held.mem, ?_⟩
    simp [Entry.outline, Entry.isActive_iff.mp held.isActive]
  rw [if_pos hthere]
  congr 1
  unfold Store.putEntry
  rw [List.map_map, List.map_map]
  apply List.map_congr_left
  intro x hx
  simp only [Function.comp_apply]
  rw [hid]
  by_cases hsame : x.id = e.id
  . have := Store.eq_of_id_eq hs.entryIds hx held.mem hsame
    subst this
    simp [Entry.outline] at hf ⊢
    exact hf
  . simp [hsame, Entry.outline]

theorem add_eq_addEntry {e : Entry} (hid : e.id = Store.nextId (s.entries.map (·.id))) :
    add e.outline (s.entries.map Entry.outline) = some ((s.addEntry e).entries.map Entry.outline) := by
  unfold add
  have hnew : ¬(s.entries.map Entry.outline).any (·.id = e.outline.id) := by
    rw [List.any_map, List.any_eq_true]
    rintro ⟨x, hx, hsame⟩
    have hlt : x.id < e.id := by
      rw [hid]
      exact Store.lt_nextId (List.mem_map_of_mem hx)
    have hsame : x.id = e.id := of_decide_eq_true hsame
    omega
  rw [if_neg hnew]
  simp

end

/-! ## Steps -/

/-- A step writes rows from which the change that it makes to the entries can be told. -/
def Tells (s s' : Store) : Prop :=
  ∃ rs, s'.audit = s.audit ++ rs ∧
    rows (s.entries.map Entry.outline) rs = some (s'.entries.map Entry.outline)

theorem Tells.refl (s : Store) : Tells s s :=
  ⟨[], by simp, rfl⟩

theorem Tells.trans {s s' s'' : Store} (h : Tells s s') (h' : Tells s' s'') : Tells s s'' := by
  obtain ⟨rs, haudit, hrows⟩ := h
  obtain ⟨rs', haudit', hrows'⟩ := h'
  refine ⟨rs ++ rs', by rw [haudit', haudit, List.append_assoc], ?_⟩
  unfold rows at *
  rw [List.foldlM_append, hrows]
  exact hrows'

theorem tells_addAudit {s s' : Store} {r : AuditRow} (haudit : s'.audit = s.audit)
    (h : row (s.entries.map Entry.outline) r = some (s'.entries.map Entry.outline)) :
    Tells s (s'.addAudit r) := by
  refine ⟨[r], by rw [Store.addAudit_audit, haudit], ?_⟩
  unfold rows
  rw [List.foldlM_cons, h]
  rfl

theorem outlines_remember {s : Store} {e : Entry} (hs : s.IsSound) (he : e ∈ s.entries) (b : Bucket) :
    (s.putEntry (e.remember b)).entries.map Entry.outline = s.entries.map Entry.outline := by
  unfold Store.putEntry
  rw [List.map_map]
  apply List.map_congr_left
  intro x hx
  simp only [Function.comp_apply]
  split
  . next hsame =>
    rw [Store.eq_of_id_eq hs.entryIds hx he hsame]
    rfl
  . rfl

theorem outline_of_opening {c : Call} {s : Store} {e : Entry} {first : Stage} (h : Opening c s e first) :
    e.outline = .opened e.id e.lead e.pipeline first.id .active c.now := by
  simp [Entry.outline, Outline.opened, h.stage, h.status, h.enrolledAt, h.enteredAt, h.closedAt]

theorem outline_of_isPlaced {c : Call} {e new : Entry} {target : Stage} (he : e.IsCoherent) (ha : e.isActive)
    (h : Advancement.IsPlaced c e target new) :
    (e.outline.enter target.id c.now).settle new.status c.now = new.outline := by
  have hstatus := Entry.isActive_iff.mp ha
  have hopen := he.closedAt.mpr hstatus
  rcases h.status with ⟨hnew, hclosed, -⟩ | ⟨hnew, hclosed, -⟩ <;>
    simp [Entry.outline, Outline.enter, Outline.settle, h.id, h.lead, h.pipeline, h.stage, h.enrolledAt,
      h.enteredAt, hnew, hclosed, hstatus, hopen]

theorem status_of_isPlaced {c : Call} {e new : Entry} {target : Stage} (ha : e.isActive)
    (h : Advancement.IsPlaced c e target new) : Status.ofName new.status.name = new.status := by
  have hstatus := Entry.isActive_iff.mp ha
  rcases h.status with ⟨hnew, -⟩ | ⟨hnew, -⟩ <;> simp [hnew, hstatus, Status.name, Status.ofName]

theorem tells_step {f : Effect} {s s' : Store} (hs : s.IsSound) (h : s.Step f s') : Tells s s' := by
  cases h with
  | aside _ entries audit => exact ⟨[], by simp [audit], by rw [entries]; rfl⟩
  | addStage => exact ⟨[], by simp, rfl⟩
  | note n actor time subject =>
    apply tells_addAudit
    . rfl
    . simp [row, Transaction.Note.row, subject]
  | refresh b held => exact ⟨[], by simp, by rw [outlines_remember hs held.mem]; rfl⟩
  | enroll opening =>
    apply tells_addAudit
    . rfl
    . rw [row_enrolled, ← add_eq_addEntry opening.id, outline_of_opening opening]
      rfl
  | move held here resolved placed =>
    have hp := Advancement.isPlaced_of_placed placed
    apply tells_addAudit
    . rfl
    . rw [row_moved (status_of_isPlaced held.isActive hp)]
      exact change_eq_putEntry hs held hp.id
        (outline_of_isPlaced (hs.coherent _ held.mem) held.isActive hp)
  | archive held here keeps =>
    apply tells_addAudit
    . rfl
    . rw [row_archived]
      exact change_eq_putEntry hs held rfl rfl
  | @transfer _ c e x _ first _ _ kept held here keeps lead pipeline apart opening =>
    apply tells_addAudit
    . rfl
    -- The row is about the entry that is closed, but tells of the one that is opened too.
    . have hclosed : change e.id (·.settle .archived c.now) (s.entries.map Entry.outline) =
          some ((s.putEntry (e.archive kept c.now)).entries.map Entry.outline) :=
        change_eq_putEntry hs held rfl rfl
      rw [row_transferred pipeline, hclosed, ← add_eq_addEntry opening.id, outline_of_opening opening, lead]
      rfl

/-! ## Counting rows -/

theorem entryRows_step {f : Effect} {s s' : Store} (h : s.Step f s') :
    ∃ rs, s'.audit = s.audit ++ rs ∧ rs.countP (·.subject = .entry) = f.rows := by
  cases h with
  | aside _ _ audit => exact ⟨[], by simp [audit], rfl⟩
  | addStage => exact ⟨[], by simp, rfl⟩
  | note n actor time subject => exact ⟨_, rfl, by simp [Transaction.Note.row, subject, Effect.rows]⟩
  | refresh => exact ⟨[], by simp, rfl⟩
  | enroll => exact ⟨_, rfl, rfl⟩
  | move => exact ⟨_, rfl, rfl⟩
  | archive => exact ⟨_, rfl, rfl⟩
  | transfer => exact ⟨_, rfl, rfl⟩

theorem entryRows_steps {f : Effect} {n : Nat} {s s' : Store} (h : s.Steps f n s') :
    ∃ rs, s'.audit = s.audit ++ rs ∧ rs.countP (·.subject = .entry) = n := by
  induction h with
  | refl => exact ⟨[], by simp, rfl⟩
  | tail _ step ih =>
    obtain ⟨rs, haudit, hcount⟩ := ih
    obtain ⟨rs', haudit', hcount'⟩ := entryRows_step step
    refine ⟨rs ++ rs', by rw [haudit', haudit, List.append_assoc], ?_⟩
    rw [List.countP_append, hcount, hcount']

end Replay

namespace Service

theorem entryRows_after {s : Service} (hs : s.store.IsSound) (t : Turn) :
    ∃ rs, (s.after t).store.audit = s.store.audit ++ rs ∧
      rs.countP (·.subject = .entry) = t.command.outcomeRows (s.answer t) := by
  cases h : s.answer t with
  | ok v => exact Replay.entryRows_steps (steps_of_answer hs h)
  | error e => exact ⟨[], by simp [(store_of_fault hs h).1], rfl⟩

end Service

end StageGate
