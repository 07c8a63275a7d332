import StageGate.Proofs.Drafts

/-!
This module contains that going through the active entries of a pipeline, one after the other, comes to reading all of
them first and changing what they remember then: what is read of an entry does not depend on what the others remember.
-/

namespace StageGate

structure Reading where
  entry : Entry
  stage : Stage
  health : Health
  deriving DecidableEq

def Tally.addAll (t : Tally) (rs : List Reading) : Tally :=
  rs.foldl (fun t r => t.add r.entry r.stage r.health) t

def Store.remembering (s : Store) (rs : List Reading) : Store :=
  rs.foldl (fun s r => s.putEntry (r.entry.remember r.health.bucket)) s

@[simp]
theorem Store.stages_remembering (s : Store) (rs : List Reading) : (s.remembering rs).stages = s.stages := by
  induction rs generalizing s with
  | nil => rfl
  | cons r rs ih => exact ih (s.putEntry (r.entry.remember r.health.bucket))

/-- What is kept when one entry remembers another health is kept when all of them do. -/
theorem Store.preserved_remembering {I : Store → Prop} {rs : List Reading} {s : Store}
    (hput : ∀ r ∈ rs, ∀ s, I s → I (s.putEntry (r.entry.remember r.health.bucket))) (hs : I s) :
    I (s.remembering rs) := by
  induction rs generalizing s with
  | nil => exact hs
  | cons r rs ih =>
    rw [List.forall_mem_cons] at hput
    exact ih hput.2 (hput.1 s hs)

theorem Tally.stages_start (stages : List Stage) : (start stages).stages.map (·.stage) = stages := by
  simp [start, StageRow.blank, Function.comp_def]

theorem Tally.stages_addAll (t : Tally) (rs : List Reading) :
    (t.addAll rs).stages.map (·.stage) = t.stages.map (·.stage) := by
  have hrow (stage : Int) (b : Bucket) (row : StageRow) : (row.add stage b).stage = row.stage := by
    unfold StageRow.add
    split <;> rfl
  induction rs generalizing t with
  | nil => rfl
  | cons r rs ih =>
    refine (ih (t.add r.entry r.stage r.health)).trans ?_
    simp [add, hrow]

namespace HealthSummary

variable {window : Value} {now : Stamp}

def read (window : Value) (now : Stamp) (s : Store) (e : Entry) : Except Fault Reading := do
  let now ← now.instant
  let stage ← Store.follow (s.stage? e.stage)
  return ⟨e, stage, ← Health.of e.enteredAt now stage.deadline window⟩

def readActive (window : Value) (now : Stamp) (pipeline : Int) (s : Store) : Except Fault (List Reading) :=
  (s.entries.filter fun e => e.pipeline = pipeline && e.isActive).mapM (read window now s)

def refresh (window pipeline : Value) (now : Stamp) : Transaction (Int × List Reading) := do
  let p ← Transaction.reading (·.pipeline pipeline)
  let readings ← Transaction.reading (readActive window now p.id)
  modify (·.remembering readings)
  return (p.id, readings)

def ofReadings (pipeline : Int) (now : Stamp) (stages : List Stage) (rs : List Reading) : HealthSummary :=
  ⟨pipeline, now, rs.length, (Tally.start stages).addAll rs⟩

theorem settle_goThrough_cons (t : Tally) (e : Entry) (es : List Entry) :
    (goThrough window now t (e :: es)).settle = (do
      let r ← Transaction.reading (read window now · e)
      modify (·.putEntry (r.entry.remember r.health.bucket))
      (goThrough window now (t.add r.entry r.stage r.health) es).settle) := by
  have hread : Transaction.reading (read window now · e) = (do
      let now ← now.instant
      let stage ← Transaction.reading fun s => Store.follow (s.stage? e.stage)
      let health ← Health.of e.enteredAt now stage.deadline window
      return ⟨e, stage, health⟩ : Transaction Reading) := by
    funext s
    rw [Transaction.reading_eq, Transaction.bind_eq, Transaction.lift_eq]
    unfold read
    cases now.instant with
    | error f => rfl
    | ok now =>
      rw [Except.map, ok_bind, ok_bind, Transaction.reading_bind]
      cases Store.follow (s.stage? e.stage) with
      | error f => rfl
      | ok stage =>
        rw [ok_bind, ok_bind, Transaction.bind_eq, Transaction.lift_eq]
        cases Health.of e.enteredAt now stage.deadline window <;> rfl
  simp only [goThrough, Draft.settle_bind, Draft.settle_lift, Draft.settle_look, Draft.settle_modify, hread, bind_assoc,
    pure_bind]

theorem settle_goThrough (t : Tally) (es : List Entry) (s : Store) : (goThrough window now t es).settle s =
    (es.mapM (read window now s)).map fun rs => (t.addAll rs, s.remembering rs) := by
  induction es generalizing t s with
  | nil => rfl
  | cons e es ih =>
    rw [settle_goThrough_cons, Transaction.reading_bind, List.mapM_cons]
    cases read window now s e with
    | error f => rfl
    | ok r =>
      have hread : read window now (s.putEntry (r.entry.remember r.health.bucket)) = read window now s := rfl
      change (goThrough window now (t.add r.entry r.stage r.health) es).settle
        (s.putEntry (r.entry.remember r.health.bucket)) = _
      rw [ih, hread]
      cases es.mapM (read window now s) <;> rfl

/-- A draft of a summary refreshes what the entries remember, and makes up the summary of what was read of them. -/
theorem settle_draft (window pipeline : Value) (now : Stamp) : (draft window pipeline now).settle = (do
    let s ← get
    let (p, rs) ← refresh window pipeline now
    return ofReadings p now (s.stagesOf p) rs) := by
  funext s
  unfold draft refresh
  simp only [Draft.settle_bind, Draft.settle_look, Draft.settle_get, Draft.settle_pure, bind_assoc, pure_bind]
  have hget {α : Type} (f : Store → Transaction α) : (get >>= f) s = f s s := rfl
  rw [hget, Transaction.reading_bind, Transaction.reading_bind]
  cases s.pipeline pipeline with
  | error f => rfl
  | ok p =>
    rw [ok_bind, ok_bind, hget, Transaction.reading_bind, Transaction.bind_eq, settle_goThrough]
    unfold readActive
    cases h : (s.entries.filter fun e => e.pipeline = p.id && e.isActive).mapM (read window now s) with
    | error f => rfl
    | ok rs =>
      unfold ofReadings
      rw [length_of_mapM_eq_ok h]
      rfl

end HealthSummary

namespace HealthSummary

def stagesInOrder (pipeline : Int) (s : Store) : Except Fault (List Stage) := do
  let stages := s.stagesOf pipeline
  let _ ← Value.sort (stages.map (·.order))
  return stages

theorem sorted_ofReadings (pipeline : Int) (now : Stamp) (s : Store) (rs : List Reading) :
    (ofReadings pipeline now (s.stagesOf pipeline) rs).sorted =
      (stagesInOrder pipeline s).map fun stages => ofReadings pipeline now stages rs := by
  have hstages : (ofReadings pipeline now (s.stagesOf pipeline) rs).tally.stages.map (·.stage.order) =
      (s.stagesOf pipeline).map (·.order) := by
    have h := congrArg (List.map Stage.order) (Tally.stages_addAll (.start (s.stagesOf pipeline)) rs)
    rw [List.map_map, Tally.stages_start] at h
    exact h
  unfold sorted stagesInOrder
  dsimp only
  rw [hstages]
  cases Value.sort ((s.stagesOf pipeline).map (·.order)) <;> rfl

theorem refresh_eq (window pipeline : Value) (now : Stamp) (s : Store) : refresh window pipeline now s = (do
    let p ← s.pipeline pipeline
    let rs ← readActive window now p.id s
    return ((p.id, rs), s.remembering rs)) := by
  unfold refresh
  rw [Transaction.reading_bind]
  congr 1
  funext p
  rw [Transaction.reading_bind]
  rfl

end HealthSummary

theorem Administration.healthSummary_eq (window pipeline : Value) (now : Stamp) :
    healthSummary window pipeline now = (do
      let (p, rs) ← Operation.commit (HealthSummary.refresh window pipeline now)
      let stages ← Operation.reading (HealthSummary.stagesInOrder p)
      return HealthSummary.ofReadings p now stages rs) := by
  funext s
  have hget {α : Type} (f : Store → Transaction α) : (get >>= f) s.store = f s.store s.store := rfl
  unfold healthSummary
  rw [Operation.settle_eq, HealthSummary.settle_draft, Operation.commit_bind_eq, Operation.commit_bind_eq, hget,
    Transaction.bind_eq, HealthSummary.refresh_eq]
  cases s.store.pipeline pipeline with
  | error f => rfl
  | ok p =>
    rw [ok_bind]
    cases HealthSummary.readActive window now p.id s.store with
    | error f => rfl
    | ok rs =>
      have hstages : (s.store.remembering rs).stagesOf p.id = s.store.stagesOf p.id := by
        unfold Store.stagesOf
        rw [Store.stages_remembering]
      have hsorted := HealthSummary.sorted_ofReadings p.id now (s.store.remembering rs) rs
      rw [hstages] at hsorted
      change Operation.reading _ _ = (Operation.reading (HealthSummary.stagesInOrder p.id) >>= _) _
      rw [Operation.reading_eq, Operation.reading_bind_eq, hsorted]
      dsimp only
      cases HealthSummary.stagesInOrder p.id (s.store.remembering rs) <;> rfl

end StageGate
