import StageGate.Advancement
import StageGate.Closing
import StageGate.Proofs.Step
import StageGate.Proofs.Universal

/-!
This module contains what is known of a stage that an entry may move to, of an entry once it is there, and
of one that is archived.
-/

namespace StageGate

structure Entry.IsCoherent (e : Entry) : Prop where
  status : e.status = .active ∨ e.status = .archived ∨ e.status = .completed
  closedAt : e.closedAt = none ↔ e.status = .active
  cached : e.status = .active → ∃ b : Bucket, e.healthCache = some b.name
  uncached : e.status ≠ .active → e.healthCache = none
  reason : e.status ≠ .archived → e.archiveReason = none
  shortReason : ∀ reason ∈ e.archiveReason, reason.length ≤ Entry.longestReason

theorem Entry.isActive_iff {e : Entry} : e.isActive ↔ e.status = .active := by
  simp [isActive]

namespace Advancement

/-- A stage that an entry may move to: it is another one of the pipeline, and has room. -/
structure IsTarget (e : Entry) (s : Store) (target : Stage) : Prop where
  mem : target ∈ s.stages
  pipeline : target.pipeline = e.pipeline
  other : target.id ≠ e.stage
  room : ∀ limit, target.capacity? = some limit →
    limit.atMost (.int (s.occupancy target.id)) = .ok false

theorem ne_of_moveRefusal? {p : Pipeline} {current target : Stage}
    (h : moveRefusal? p current target = .ok none) : target.id ≠ current.id := by
  intro hid
  simp [moveRefusal?, hid, pure, Except.pure] at h

theorem of_resolveTarget {e : Entry} {name : Value} {s : Store} {target : Stage}
    (h : resolveTarget e name s = .ok target) : ∃ current p, s.stage? e.stage = some current ∧
      s.pipeline? e.pipeline = some p ∧ Store.seek s.stage? name = .ok (some target) ∧ target.pipeline = e.pipeline ∧
      moveRefusal? p current target = .ok none ∧
      ∀ limit, target.capacity? = some limit → limit.atMost (.int (s.occupancy target.id)) = .ok false := by
  unfold resolveTarget at h
  simp only [bind_eq_ok, Store.follow_eq_ok] at h
  obtain ⟨current, hcurrent, p, hp, found?, hfound, h⟩ := h
  split at h
  . cases h
  . next stage hs =>
    rw [Option.filter_eq_some_iff] at hs
    obtain ⟨rfl, hpipeline⟩ := hs
    rw [bind_eq_ok] at h
    obtain ⟨reason?, hreason, h⟩ := h
    split at h
    . cases h
    . split at h
      . next hc =>
        cases h
        exact ⟨current, p, hcurrent, hp, hfound, by simpa using hpipeline, hreason, by simp [hc]⟩
      . next limit hc =>
        rw [bind_eq_ok] at h
        obtain ⟨full, hfull, h⟩ := h
        split at h
        . cases h
        . next hroom =>
          cases h
          refine ⟨current, p, hcurrent, hp, hfound, by simpa using hpipeline, hreason, ?_⟩
          intro limit' hc'
          rw [hc, Option.some.injEq] at hc'
          rw [← hc', hfull]
          simpa using hroom

theorem isTarget_of_resolveTarget {e : Entry} {name : Value} {s : Store} {target : Stage}
    (h : resolveTarget e name s = .ok target) : IsTarget e s target := by
  obtain ⟨current, p, hcurrent, -, hfound, hpipeline, hreason, hroom⟩ := of_resolveTarget h
  obtain ⟨_, _, _, _, hstage⟩ := Store.row?_of_seek hfound
  have hhere : current.id = e.stage := by simpa using List.find?_some hcurrent
  exact ⟨List.mem_of_find?_eq_some hstage, hpipeline, hhere ▸ ne_of_moveRefusal? hreason, hroom⟩

theorem IsTarget.occupancy_lt {e : Entry} {s : Store} {target : Stage} (h : IsTarget e s target) {n : Int}
    (hlimit : target.limit = .int n) (hpos : target.limit.isLimit) : s.occupancy target.id < n := by
  rw [hlimit] at hpos
  have hpos : 1 ≤ n := by simpa [Value.isLimit] using hpos
  have hne : n ≠ 0 := by omega
  have hcapacity : target.capacity? = some (.int n) := by simp [Stage.capacity?, hlimit, Value.isTrue, hne]
  have hroom := h.room _ hcapacity
  rw [Value.atMost_int, Except.ok.injEq, decide_eq_false_iff_not] at hroom
  omega

structure IsPlaced (c : Call) (e : Entry) (target : Stage) (new : Entry) : Prop where
  id : new.id = e.id
  lead : new.lead = e.lead
  pipeline : new.pipeline = e.pipeline
  stage : new.stage = target.id
  enrolledAt : new.enrolledAt = e.enrolledAt
  enteredAt : new.enteredAt = c.now
  origin : new.transferredFrom = e.transferredFrom
  reason : new.archiveReason = e.archiveReason
  status : new.status = e.status ∧ new.closedAt = e.closedAt ∧ (∃ b : Bucket, new.healthCache = some b.name) ∨
    new.status = .completed ∧ new.closedAt = some c.now ∧ new.healthCache = none

theorem isPlaced_of_placed {c : Call} {e : Entry} {target : Stage} {note : Value} {s : Store} {new : Entry}
    (h : placed c c.now e target note s = .ok new) : IsPlaced c e target new := by
  rw [placed_universal, bind_eq_ok] at h
  obtain ⟨kept, -, h⟩ := h
  split at h
  . cases h
    exact ⟨rfl, rfl, rfl, rfl, rfl, rfl, rfl, rfl, .inr ⟨rfl, rfl, rfl⟩⟩
  . rw [bind_eq_ok] at h
    obtain ⟨health, -, h⟩ := h
    cases h
    exact ⟨rfl, rfl, rfl, rfl, rfl, rfl, rfl, rfl, .inl ⟨rfl, rfl, health.bucket, rfl⟩⟩

end Advancement

namespace Enrollment

theorem vacant_of_requireVacant {leadName pipelineName : Value} {lead pipeline : Int} {s : Store} {u : Unit}
    (h : requireVacant leadName pipelineName lead pipeline s = .ok u) :
    s.activeEntryIn? lead pipeline = none := by
  unfold requireVacant at h
  split at h
  . cases h
  . assumption

theorem enrollable_eq_ok {id : Value} {s : Store} {p : Pipeline} :
    enrollable id s = .ok p ↔ s.pipeline id = .ok p ∧ p.isActive ∧ s.validate p = .ok () := by
  unfold enrollable
  rw [bind_eq_ok]
  constructor
  . rintro ⟨p', hp', h⟩
    cases ha : p'.isActive with
    | false =>
      rw [ha] at h
      cases h
    | true =>
      simp only [ha, Bool.not_true, Bool.false_eq_true, ↓reduceIte, bind_eq_ok] at h
      obtain ⟨_, hvalid, h⟩ := h
      cases h
      exact ⟨hp', ha, hvalid⟩
  . rintro ⟨hp, ha, hvalid⟩
    refine ⟨p, hp, ?_⟩
    simp [ha, hvalid, bind, Except.bind, pure, Except.pure]

theorem pipeline_of_enrollable {id : Value} {s : Store} {p : Pipeline} (h : enrollable id s = .ok p) :
    s.pipeline id = .ok p :=
  (enrollable_eq_ok.mp h).1

theorem opening_of_newEntry {c : Call} {name : Value} {lead pipeline : Int} {note : Value}
    {source : Option Int} {s : Store} {e : Entry} {first : Stage}
    (h : newEntry c name lead pipeline note source s = .ok (e, first)) :
    Opening c s e first ∧ e.lead = lead ∧ e.pipeline = pipeline ∧ e.transferredFrom = source := by
  rw [newEntry_universal] at h
  simp only [bind_eq_ok, Store.follow_eq_ok] at h
  obtain ⟨_, hvacant, first, hfirst, note, -, health, hhealth, h⟩ := h
  cases h
  exact ⟨⟨vacant_of_requireVacant hvacant, hfirst, rfl, rfl, rfl, rfl, rfl, rfl, rfl, health, hhealth, rfl⟩,
    rfl, rfl, rfl⟩

end Enrollment

namespace Closing

theorem length_of_keptReason {reason : Value} {kept : Option String} (h : keptReason reason = .ok kept) :
    ∀ reason ∈ kept, reason.length ≤ Entry.longestReason := by
  unfold keptReason at h
  split at h
  . cases h
    simp
  . split at h
    . next s =>
      rw [bind_eq_ok] at h
      obtain ⟨_, -, h⟩ := h
      cases h
      simp only [Entry.cutReason, Option.mem_some_iff, forall_eq', String.length_ofList, List.length_take]
      omega
    . cases h
    . cases h

end Closing

/-! ## Columns that agree with the status -/

namespace Entry.IsCoherent

variable {c : Call} {e : Entry}

theorem of_opening {s : Store} {first : Stage} (h : Opening c s e first) : e.IsCoherent := by
  obtain ⟨health, -, hcache⟩ := h.health
  constructor
  . exact .inl h.status
  . simp [h.closedAt, h.status]
  . intro _
    exact ⟨health.bucket, hcache⟩
  . intro hs
    exact absurd h.status hs
  . intro _
    exact h.reason
  . simp [h.reason]

theorem remember (h : e.IsCoherent) (ha : e.isActive) (b : Bucket) : (e.remember b).IsCoherent := by
  rw [Entry.isActive_iff] at ha
  constructor
  . exact h.status
  . exact h.closedAt
  . intro _
    exact ⟨b, rfl⟩
  . intro hs
    exact absurd ha hs
  . exact h.reason
  . exact h.shortReason

theorem archive {reason : Value} {kept : Option String} (hk : Closing.keptReason reason = .ok kept)
    (now : Instant) : (e.archive kept now).IsCoherent := by
  constructor
  . simp [Entry.archive]
  . simp [Entry.archive]
  . simp [Entry.archive]
  . simp [Entry.archive]
  . simp [Entry.archive]
  . exact Closing.length_of_keptReason hk

theorem of_isPlaced {target : Stage} {new : Entry} (h : e.IsCoherent) (ha : e.isActive)
    (hp : Advancement.IsPlaced c e target new) : new.IsCoherent := by
  rw [Entry.isActive_iff] at ha
  have hreason : new.archiveReason = none := by
    rw [hp.reason]
    exact h.reason (by simp [ha])
  rcases hp.status with ⟨hs, hc, b, hb⟩ | ⟨hs, hc, hb⟩
  . rw [ha] at hs
    rw [h.closedAt.mpr ha] at hc
    refine ⟨?_, ?_, fun _ => ⟨b, hb⟩, ?_, ?_, ?_⟩ <;> simp [hs, hc, hreason]
  . constructor <;> simp [hs, hc, hb, hreason]

end Entry.IsCoherent

end StageGate
