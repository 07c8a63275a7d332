import StageGate.Proofs.Placement

/-!
This module contains what is always so of the store: ids rise, limits are limits, orders are numbers, entries
agree with their status and are in stages of their pipelines, and no lead has two active entries in one
pipeline. Every step keeps that.
-/

namespace StageGate.Store

def Houses (s : Store) (e : Entry) : Prop :=
  ∃ stage ∈ s.stages, stage.id = e.stage ∧ stage.pipeline = e.pipeline

structure IsSound (s : Store) : Prop where
  stageIds : (s.stages.map (·.id)).Pairwise (· < ·)
  entryIds : (s.entries.map (·.id)).Pairwise (· < ·)
  auditIds : (s.audit.map (·.id)).Pairwise (· < ·)
  limits : ∀ stage ∈ s.stages, stage.limit.isLimit
  orders : ∀ stage ∈ s.stages, stage.order.isNumber
  coherent : ∀ e ∈ s.entries, e.IsCoherent
  housed : ∀ e ∈ s.entries, s.Houses e
  single : ∀ e ∈ s.entries, ∀ x ∈ s.entries, e.isActive → x.isActive → e.lead = x.lead →
    e.pipeline = x.pipeline → e = x

theorem isSound_empty : empty.IsSound := by
  constructor <;> simp [empty]

namespace IsSound

variable {s : Store}

/-! ## Rows that are written -/

theorem congr {s' : Store} (h : s.IsSound) (hstages : s'.stages = s.stages) (hentries : s'.entries = s.entries)
    (haudit : s'.audit = s.audit) : s'.IsSound := by
  constructor
  . simpa [hstages] using h.stageIds
  . simpa [hentries] using h.entryIds
  . simpa [haudit] using h.auditIds
  . simpa [hstages] using h.limits
  . simpa [hstages] using h.orders
  . simpa [hentries] using h.coherent
  . simpa [hentries, hstages, Houses] using h.housed
  . rw [hentries]
    exact h.single

theorem addAudit {r : AuditRow} (h : s.IsSound) (hid : r.id = nextId (s.audit.map (·.id))) :
    (s.addAudit r).IsSound where
  stageIds := h.stageIds
  entryIds := h.entryIds
  auditIds := by
    rw [addAudit_audit, List.map_append, List.map_cons, List.map_nil, hid]
    exact pairwise_lt_concat h.auditIds
  limits := h.limits
  orders := h.orders
  coherent := h.coherent
  housed := h.housed
  single := h.single

theorem addStage {stage : Stage} (h : s.IsSound) (hid : stage.id = nextId (s.stages.map (·.id)))
    (hlimit : stage.limit.isLimit) (horder : stage.order.isNumber) :
    { s with stages := s.stages ++ [stage] : Store }.IsSound where
  stageIds := by
    rw [List.map_append, List.map_cons, List.map_nil, hid]
    exact pairwise_lt_concat h.stageIds
  entryIds := h.entryIds
  auditIds := h.auditIds
  limits := by
    intro x hx
    rw [List.mem_append, List.mem_singleton] at hx
    rcases hx with hx | rfl
    . exact h.limits x hx
    . exact hlimit
  orders := by
    intro x hx
    rw [List.mem_append, List.mem_singleton] at hx
    rcases hx with hx | rfl
    . exact h.orders x hx
    . exact horder
  coherent := h.coherent
  housed := by
    intro e he
    obtain ⟨x, hx, hstage⟩ := h.housed e he
    exact ⟨x, by simp [hx], hstage⟩
  single := h.single

theorem addEntry {e : Entry} (h : s.IsSound) (hid : e.id = nextId (s.entries.map (·.id)))
    (hcoherent : e.IsCoherent) (hhoused : s.Houses e) (hvacant : s.activeEntryIn? e.lead e.pipeline = none) :
    (s.addEntry e).IsSound where
  stageIds := h.stageIds
  entryIds := by
    rw [addEntry_entries, List.map_append, List.map_cons, List.map_nil, hid]
    exact pairwise_lt_concat h.entryIds
  auditIds := h.auditIds
  limits := h.limits
  orders := h.orders
  coherent := by
    intro x hx
    rw [addEntry_entries, List.mem_append, List.mem_singleton] at hx
    rcases hx with hx | rfl
    . exact h.coherent x hx
    . exact hcoherent
  housed := by
    intro x hx
    rw [addEntry_entries, List.mem_append, List.mem_singleton] at hx
    rcases hx with hx | rfl
    . exact h.housed x hx
    . exact hhoused
  single := by
    -- Of two entries that meet, one would be new, and its place was vacant.
    intro x hx y hy hxa hya hlead hpipeline
    rw [activeEntryIn?_eq_none] at hvacant
    rw [addEntry_entries, List.mem_append, List.mem_singleton] at hx hy
    rcases hx with hx | rfl <;> rcases hy with hy | rfl
    . exact h.single x hx y hy hxa hya hlead hpipeline
    . exact absurd hpipeline (hvacant x hx hxa hlead)
    . exact absurd hpipeline.symm (hvacant y hy hya hlead.symm)
    . rfl

theorem putEntry {e new : Entry} (h : s.IsSound) (he : e ∈ s.entries) (hid : new.id = e.id)
    (hlead : new.lead = e.lead) (hpipeline : new.pipeline = e.pipeline) (hcoherent : new.IsCoherent)
    (hhoused : s.Houses new) (hactive : new.isActive → e.isActive) : (s.putEntry new).IsSound where
  stageIds := h.stageIds
  entryIds := by
    rw [putEntry_ids]
    exact h.entryIds
  auditIds := h.auditIds
  limits := h.limits
  orders := h.orders
  coherent := by
    intro x hx
    rcases mem_putEntry hx with rfl | ⟨hx, -⟩
    . exact hcoherent
    . exact h.coherent x hx
  housed := by
    intro x hx
    rcases mem_putEntry hx with rfl | ⟨hx, -⟩
    . exact hhoused
    . exact h.housed x hx
  single := by
    intro x hx y hy hxa hya hl hp
    rcases mem_putEntry hx with rfl | ⟨hx', hxne⟩ <;> rcases mem_putEntry hy with rfl | ⟨hy', hyne⟩
    . rfl
    . have := h.single e he y hy' (hactive hxa) hya (hlead.symm.trans hl) (hpipeline.symm.trans hp)
      exact absurd (hid.trans (congrArg _ this)).symm hyne
    . have := h.single x hx' e he hxa (hactive hya) (hl.trans hlead) (hp.trans hpipeline)
      exact absurd ((congrArg _ this).trans hid.symm) hxne
    . exact h.single x hx' y hy' hxa hya hl hp

/-! ## Rows that the store takes -/

theorem admits_vacant {e : Entry} (h : s.activeEntryIn? e.lead e.pipeline = none) : s.admits e := by
  rw [activeEntryIn?_eq_none] at h
  rw [admits_iff]
  intro _ x hx hactive hlead hpipeline
  exact absurd hpipeline (h x hx hactive hlead)

theorem admits {e new : Entry} (h : s.IsSound) (he : e ∈ s.entries) (hid : new.id = e.id)
    (hlead : new.lead = e.lead) (hpipeline : new.pipeline = e.pipeline)
    (hactive : new.isActive → e.isActive) : s.admits new := by
  rw [admits_iff]
  intro ha x hx hxa hl hp
  have := h.single x hx e he hxa (hactive ha) (hl.trans hlead) (hp.trans hpipeline)
  rw [this, hid]

/-! ## Steps -/

theorem houses_opening {c : Call} {e : Entry} {first : Stage} (h : Opening c s e first) : s.Houses e := by
  obtain ⟨hmem, hpipeline⟩ := mem_of_head?_stagesOf h.head
  exact ⟨first, hmem, h.stage.symm, hpipeline⟩

theorem openEntry {c : Call} {e : Entry} {first : Stage} (h : s.IsSound) (ho : Opening c s e first) :
    (s.addEntry e).IsSound :=
  h.addEntry ho.id (.of_opening ho) (houses_opening ho) ho.vacant

theorem archive {e : Entry} {reason : Value} {kept : Option String} (h : s.IsSound) (he : s.Holds e)
    (hk : Closing.keptReason reason = .ok kept) (now : Instant) :
    (s.putEntry (e.archive kept now)).IsSound := by
  apply h.putEntry he.mem
  . rfl
  . rfl
  . rfl
  . exact .archive hk now
  . exact h.housed e he.mem
  . exact fun _ => he.isActive

theorem move {c : Call} {e new : Entry} {target : Stage} (h : s.IsSound) (he : s.Holds e)
    (ht : Advancement.IsTarget e s target) (hp : Advancement.IsPlaced c e target new) :
    (s.putEntry new).IsSound := by
  apply h.putEntry he.mem hp.id hp.lead hp.pipeline
  . exact (h.coherent e he.mem).of_isPlaced he.isActive hp
  . refine ⟨target, ht.mem, hp.stage.symm, ?_⟩
    rw [hp.pipeline, ht.pipeline]
  . exact fun _ => he.isActive

theorem step {f : Effect} {s' : Store} (h : s.IsSound) (hstep : Step f s s') : s'.IsSound := by
  cases hstep with
  | aside hstages hentries haudit => exact h.congr hstages hentries haudit
  | addStage hid hlimit fit => exact h.addStage hid hlimit fit.order
  | note n actor time => exact h.addAudit rfl
  | @refresh _ e b held =>
    apply h.putEntry held.mem
    . rfl
    . rfl
    . rfl
    . exact (h.coherent e held.mem).remember held.isActive b
    . exact h.housed e held.mem
    . exact fun _ => held.isActive
  | enroll opening => exact (h.openEntry opening).addAudit rfl
  | move held _ resolved placed =>
    have ht := Advancement.isTarget_of_resolveTarget resolved
    have hp := Advancement.isPlaced_of_placed placed
    exact (h.move held ht hp).addAudit rfl
  | archive held _ keeps => exact (h.archive held keeps _).addAudit rfl
  | transfer held _ keeps _ _ _ opening => exact ((h.archive held keeps _).openEntry opening).addAudit rfl

theorem steps {f : Effect} {n : Nat} {s' : Store} (h : s.IsSound) (hsteps : Steps f s n s') :
    s'.IsSound := by
  induction hsteps with
  | refl => exact h
  | tail _ hstep ih => exact ih.step hstep

end IsSound

end StageGate.Store
