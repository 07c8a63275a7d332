import StageGate.Proofs.Step

/-!
This module contains that the criteria of a stage are loaded as they are compiled: sources that agree compile
to the same, and so what is cached for sources that agree with the present ones is what they compile to.
-/

namespace StageGate

open Operation

/-! ## Sources that agree -/

namespace CheckSource

/-- A source that a criterion of the store could have, with a rule that is a document. -/
def IsStored (s : CheckSource) : Prop :=
  ∃ c : Criterion, c.rule.isJson ∧ s = c.source

theorem compile_of_agrees {s t : CheckSource} (hs : s.IsStored) (ht : t.IsStored) (h : s.agrees t) :
    s.compile = t.compile := by
  obtain ⟨c, hc, rfl⟩ := hs
  obtain ⟨d, hd, rfl⟩ := ht
  simp only [agrees, Criterion.source, Bool.and_eq_true, beq_iff_eq] at h
  obtain ⟨⟨⟨⟨hid, hkind⟩, hmandatory⟩, hname⟩, hrule⟩ := h
  have hrule := of_decide_eq_true hrule
  have hid : c.id = d.id := by
    simpa [Value.same, Value.sameIn, Value.isNan, Value.sameNumber, Value.magnitude?, Magnitude.eq_ofInt] using hid
  have hkind : c.kind = d.kind := by simpa [Value.same, Value.sameIn] using hkind
  have hname : c.name = d.name := by simpa [Value.same, Value.sameIn] using hname
  -- The rule is looked at in its normal form only, in which the two are equal.
  have hread (k : Kind) (path : String) : k.readRule path c.rule = k.readRule path d.rule := by
    rw [← k.readRule_normal path hc, ← k.readRule_normal path hd, hrule]
  simp only [compile, path, Criterion.source, hid, hkind, hname, hmandatory, hread]

theorem compileAll_of_allAgree {ss ts : List CheckSource} (hs : ∀ s ∈ ss, s.IsStored)
    (ht : ∀ t ∈ ts, t.IsStored) (h : allAgree ss ts) : compileAll ss = compileAll ts := by
  unfold compileAll
  induction ss generalizing ts with
  | nil =>
    cases ts with
    | nil => rfl
    | cons => simp [allAgree] at h
  | cons s ss ih =>
    cases ts with
    | nil => simp [allAgree] at h
    | cons t ts =>
      simp only [allAgree, Bool.and_eq_true] at h
      rw [List.mapM_cons, List.mapM_cons, compile_of_agrees (hs s (by simp)) (ht t (by simp)) h.1,
        ih (fun s hs' => hs s (by simp [hs'])) (fun t ht' => ht t (by simp [ht'])) h.2]

theorem compileAll_eq_error {sources : List CheckSource} :
    (∃ f, compileAll sources = .error f) ↔ ∃ s ∈ sources, ∃ f, s.compile = .error f := by
  unfold compileAll
  induction sources with
  | nil => simp [pure, Except.pure]
  | cons s sources ih =>
    rw [List.mapM_cons]
    simp only [List.mem_cons, exists_eq_or_imp]
    rw [← ih]
    cases s.compile with
    | error f => simp [bind, Except.bind]
    | ok check => cases List.mapM compile sources <;> simp [bind, Except.bind, pure, Except.pure]

end CheckSource

theorem Store.mem_sourcesOf {s : Store} {stage : Int} {source : CheckSource} :
    source ∈ s.sourcesOf stage ↔
      ∃ c ∈ s.criteria, c.stage = stage ∧ c.isActive ∧ c.source = source := by
  simp only [sourcesOf, criteriaOf, List.mem_map, List.mem_filter, Listing.mem_inOrder, decide_eq_true_eq]
  grind

theorem Store.isStored_of_mem {s : Store} (h : s.HasDocuments) (stage : Int) :
    ∀ source ∈ s.sourcesOf stage, source.IsStored := by
  intro source hsource
  obtain ⟨c, hc, -, -, rfl⟩ := mem_sourcesOf.mp hsource
  exact ⟨c, h c hc, rfl⟩

/-! ## Loading -/

namespace CriteriaCache

/-- What is cached is what compiling its sources answers. -/
def IsFaithful (cache : CriteriaCache) : Prop :=
  ∀ x ∈ cache, (∀ s ∈ x.sources, s.IsStored) ∧ CheckSource.compileAll x.sources = .ok x.checks

variable {cache : CriteriaCache} {sources : List CheckSource}

theorem IsFaithful.drop (h : cache.IsFaithful) (stage : Int) : (cache.drop stage).IsFaithful :=
  fun x hx => h x (List.mem_filter.mp hx).1

theorem IsFaithful.compileAll_of_hit (h : cache.IsFaithful) (hs : ∀ s ∈ sources, s.IsStored)
    {stage : Int} {checks : List Check} (hhit : cache.hit? stage sources = some checks) :
    CheckSource.compileAll sources = .ok checks := by
  unfold hit? at hhit
  simp only [bind, Option.bind_eq_some_iff] at hhit
  obtain ⟨x, hx, hhit⟩ := hhit
  split at hhit
  . next hagree =>
    cases hhit
    obtain ⟨hstored, hchecks⟩ := h x (List.mem_of_find?_eq_some hx)
    rw [← hchecks]
    exact (CheckSource.compileAll_of_allAgree hstored hs hagree).symm
  . cases hhit

theorem IsFaithful.load (h : cache.IsFaithful) (hs : ∀ s ∈ sources, s.IsStored) (stage : Int) :
    match cache.load stage sources with
    | .ok (checks, cache') => CheckSource.compileAll sources = .ok checks ∧ cache'.IsFaithful
    | .error f => CheckSource.compileAll sources = .error f := by
  unfold CriteriaCache.load
  cases hhit : cache.hit? stage sources with
  | some checks => exact ⟨h.compileAll_of_hit hs hhit, h⟩
  | none =>
    cases hall : CheckSource.compileAll sources with
    | error f => rfl
    | ok checks =>
      refine ⟨rfl, fun x hx => ?_⟩
      rcases List.mem_cons.mp hx with rfl | hx
      . exact ⟨hs, hall⟩
      . exact h.drop stage x hx

end CriteriaCache

/-! ## Services -/

namespace Service

def IsFaithful (s : Service) : Prop :=
  s.cache.IsFaithful

structure IsTrusty (s : Service) : Prop where
  faithful : s.IsFaithful
  documents : s.store.HasDocuments

theorem IsTrusty.locked {s : Service} (h : s.IsTrusty) (locks : Registry) : { s with locks }.IsTrusty :=
  ⟨h.faithful, h.documents⟩

end Service

namespace Operation

theorem loadChecks_eq (stage : Int) (s : Service) : loadChecks stage s =
    match s.cache.load stage (s.store.sourcesOf stage) with
    | .ok (checks, cache) => (.ok checks, { s with cache })
    | .error f => (.error f, s) := by
  unfold loadChecks
  change (match s.cache.load stage (s.store.sourcesOf stage) with
    | .ok (checks, cache) => (do
      set { s with cache }
      return checks : Operation (List Check))
    | .error f => throw f) s = _
  cases s.cache.load stage (s.store.sourcesOf stage) <;> rfl

@[simp]
theorem loadChecks_store (stage : Int) (s : Service) : (loadChecks stage s).2.store = s.store := by
  rw [loadChecks_eq]
  split <;> rfl

theorem loadChecks_of_isTrusty {s : Service} (h : s.IsTrusty) (stage : Int) :
    (loadChecks stage s).1 = CheckSource.compileAll (s.store.sourcesOf stage) ∧
      (loadChecks stage s).2.IsTrusty := by
  have hload := h.faithful.load (Store.isStored_of_mem h.documents stage) stage
  rw [loadChecks_eq]
  cases hs : s.cache.load stage (s.store.sourcesOf stage) with
  | ok r =>
    rw [hs] at hload
    exact ⟨hload.1.symm, hload.2, h.documents⟩
  | error f =>
    rw [hs] at hload
    exact ⟨hload.symm, h⟩

end Operation

end StageGate
