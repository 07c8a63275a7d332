import Mathlib.Data.List.Find
import StageGate.Proofs.Consistency
import StageGate.Proofs.Unhindered

/-!
This module contains what can stand against the move of an entry: the stage that it is to get to, which can be
out of reach or full, and the criteria of the stage that it is in.
-/

namespace StageGate

namespace Store.IsSound

variable {s : Store} {stage : Stage} {id : Int}

theorem stage?_eq_some (hs : s.IsSound) : s.stage? id = some stage ↔ stage ∈ s.stages ∧ stage.id = id :=
  find?_id_eq_some hs.stageIds

theorem exists_stage (hs : s.IsSound) {e : Entry} (he : e ∈ s.entries) :
    ∃ current ∈ s.stages, s.stage? e.stage = some current ∧ current.pipeline = e.pipeline := by
  obtain ⟨current, hmem, hid, hpipeline⟩ := hs.housed e he
  exact ⟨current, hmem, hs.stage?_eq_some.mpr ⟨hmem, hid⟩, hpipeline⟩

end Store.IsSound

namespace Advancement

/-! ## Stages that an entry may not move to -/

/-- Whether a stage comes later than the one that follows. -/
def IsJump (current target : Stage) : Prop :=
  current.order.isBelow target.order ∧ ∃ next, current.order.succ = .ok next ∧ ¬target.order.same next

/-- What a pipeline has against a move from one of its stages to another. -/
inductive Forbids (p : Pipeline) (current target : Stage) : Prop where
  | same (h : target.id = current.id)
  | jump (h : IsJump current target) (off : p.allowJumps = false)
  | back (h : target.order.isBelow current.order) (off : p.allowRegression = false)

theorem exists_moveRefusal? {s : Store} (hs : s.IsSound) (hk : s.IsConsistent) {p : Pipeline} {current target : Stage}
    (hcurrent : current ∈ s.stages) (htarget : target ∈ s.stages) (hpipeline : target.pipeline = current.pipeline) :
    ∃ reason?, moveRefusal? p current target = .ok reason? ∧ (reason?.isSome ↔ Forbids p current target) := by
  unfold moveRefusal?
  by_cases hid : target.id = current.id
  . exact ⟨some "entry is already in this stage", by simp [hid, pure, Except.pure], by simp [Forbids.same hid]⟩
  have hx := hs.orders current hcurrent
  have hy := hs.orders target htarget
  obtain ⟨next, hnext⟩ := Value.exists_succ hx
  rw [if_neg hid, Value.lt_of_isNumber hx hy]
  cases hbelow : current.order.isBelow target.order with
  | true =>
    have hforbids : Forbids p current target ↔ target.order.same next = false ∧ p.allowJumps = false := by
      constructor
      . rintro (h | ⟨⟨-, next', hnext', hother⟩, hoff⟩ | ⟨h, -⟩)
        . exact absurd h hid
        . rw [hnext] at hnext'
          cases hnext'
          exact ⟨by simpa using hother, hoff⟩
        . rw [Value.not_isBelow_of_isBelow hbelow] at h
          cases h
      . rintro ⟨hother, hoff⟩
        exact .jump ⟨hbelow, next, hnext, by simp [hother]⟩ hoff
    rw [hforbids]
    cases hother : target.order.same next <;> cases hoff : p.allowJumps <;>
      simp [hnext, hother, bind, Except.bind, pure, Except.pure]
  | false =>
    have hforbids : Forbids p current target ↔ p.allowRegression = false := by
      constructor
      . rintro (h | ⟨⟨h, -⟩, -⟩ | ⟨-, hoff⟩)
        . exact absurd h hid
        . rw [hbelow] at h
          cases h
        . exact hoff
      . intro hoff
        -- No two stages of a pipeline have one order, so the target comes earlier if it does not come later.
        have hother : current.order.same target.order = false := by
          rw [Bool.eq_false_iff]
          intro hsame
          exact hid (congrArg (·.id) (hk.apart current hcurrent target htarget hpipeline.symm hsame)).symm
        exact .back (Value.isBelow_of_not_isBelow hx hy hother hbelow) hoff
    rw [hforbids]
    cases hoff : p.allowRegression <;> simp [bind, Except.bind, pure, Except.pure]

/-- A way from the stage of an entry to another one of its pipeline. -/
structure IsWay (s : Store) (e : Entry) (id : Int) (p : Pipeline) (current target : Stage) : Prop where
  home : s.pipeline? e.pipeline = some p
  here : s.stage? e.stage = some current
  found : s.stage? id = some target
  pipeline : target.pipeline = e.pipeline

/-- What stands against a move of an entry to the stage that an id names. -/
inductive Bars (s : Store) (e : Entry) (id : Int) : Prop where
  | missing (h : s.stage? id = none)
  | elsewhere {target : Stage} (found : s.stage? id = some target) (h : target.pipeline ≠ e.pipeline)
  | forbidden {p : Pipeline} {current target : Stage} (way : IsWay s e id p current target)
      (h : Forbids p current target)

/-- Whether a stage has a limit, and as many active entries as that or more. -/
def IsFull (s : Store) (stage : Stage) : Prop :=
  ∃ limit : Int, stage.limit = .int limit ∧ limit ≤ s.occupancy stage.id

section

variable {s : Store} {e : Entry} {id : Int} {p : Pipeline} {current target : Stage}

theorem exists_isWay (hs : s.IsSound) (hk : s.IsConsistent) (he : e ∈ s.entries) (hfound : s.stage? id = some target)
    (hpipeline : target.pipeline = e.pipeline) : ∃ p current, IsWay s e id p current target := by
  obtain ⟨current, hcurrent, hhere, hcurrent'⟩ := hs.exists_stage he
  obtain ⟨p, hp⟩ := hk.exists_pipeline hcurrent
  rw [hcurrent'] at hp
  exact ⟨p, current, hp, hhere, hfound, hpipeline⟩

theorem IsWay.exists_moveRefusal? (h : IsWay s e id p current target) (hs : s.IsSound) (hk : s.IsConsistent)
    (he : e ∈ s.entries) :
    ∃ reason?, moveRefusal? p current target = .ok reason? ∧ (reason?.isSome ↔ Forbids p current target) := by
  obtain ⟨current', hcurrent, hhere, hcurrent'⟩ := hs.exists_stage he
  rw [h.here] at hhere
  cases hhere
  exact Advancement.exists_moveRefusal? hs hk hcurrent (hs.stage?_eq_some.mp h.found).1 (h.pipeline.trans hcurrent'.symm)

theorem resolveTarget_of_elsewhere (hs : s.IsSound) (hk : s.IsConsistent) (he : e ∈ s.entries)
    (hid : Column.checkInt id = .ok ()) (h : ∀ target, s.stage? id = some target → target.pipeline ≠ e.pipeline) :
    resolveTarget e (.int id) s = .error (.refused (.invalidTarget (.int e.id) (.int id)
      (.text "stage does not belong to the entry's pipeline"))) := by
  obtain ⟨current, hcurrent, hhere, hpipeline⟩ := hs.exists_stage he
  obtain ⟨p, hp⟩ := hk.exists_pipeline hcurrent
  rw [hpipeline] at hp
  have hnone : (s.stage? id).filter (·.pipeline = e.pipeline) = none := by
    rw [Option.filter_eq_none_iff]
    simpa using h
  simp only [resolveTarget, hhere, hp, Store.follow, Store.seek_int hid, bind, Except.bind, hnone]
  rfl

theorem resolveTarget_of_forbids (h : IsWay s e id p current target) (hid : Column.checkInt id = .ok ())
    {reason : String} (hrefusal : moveRefusal? p current target = .ok (some reason)) :
    resolveTarget e (.int id) s = .error (.refused (.invalidTarget (.int e.id) (.int id) (.text reason))) := by
  have hsome : (s.stage? id).filter (·.pipeline = e.pipeline) = some target := by simp [h.found, h.pipeline]
  simp only [resolveTarget, h.here, h.home, Store.follow, Store.seek_int hid, bind, Except.bind, hsome, hrefusal]
  rfl

theorem capacity?_of_limit {limit : Int} (h : target.limit.isLimit) (hint : target.limit = .int limit) :
    target.capacity? = some (.int limit) := by
  rw [hint] at h
  have hpos : 1 ≤ limit := by simpa [Value.isLimit] using h
  have hne : limit ≠ 0 := by omega
  simp [Stage.capacity?, hint, Value.isTrue, hne]

theorem resolveTarget_of_full (h : IsWay s e id p current target) (hid : Column.checkInt id = .ok ())
    (hrefusal : moveRefusal? p current target = .ok none) (hlimit : target.limit.isLimit) (hfull : IsFull s target) :
    resolveTarget e (.int id) s =
      .error (.refused (.capacityReached (.int e.id) (.int target.id) target.limit)) := by
  have hsome : (s.stage? id).filter (·.pipeline = e.pipeline) = some target := by simp [h.found, h.pipeline]
  obtain ⟨limit, hint, hfull⟩ := hfull
  simp only [resolveTarget, h.here, h.home, Store.follow, Store.seek_int hid, bind, Except.bind, hsome, hrefusal,
    capacity?_of_limit hlimit hint, Value.atMost_int, hfull, decide_true, ↓reduceIte, hint]
  rfl

theorem resolveTarget_of_room (h : IsWay s e id p current target) (hid : Column.checkInt id = .ok ())
    (hrefusal : moveRefusal? p current target = .ok none) (hlimit : target.limit.isLimit) (hroom : ¬IsFull s target) :
    resolveTarget e (.int id) s = .ok target := by
  have hsome : (s.stage? id).filter (·.pipeline = e.pipeline) = some target := by simp [h.found, h.pipeline]
  simp only [resolveTarget, h.here, h.home, Store.follow, Store.seek_int hid, bind, Except.bind, hsome, hrefusal]
  cases hint : target.limit with
  | null =>
    have hcapacity : target.capacity? = none := by simp [Stage.capacity?, hint, Value.isTrue]
    rw [hcapacity]
    rfl
  | int limit =>
    have hfree : ¬limit ≤ s.occupancy target.id := fun hle => hroom ⟨limit, hint, hle⟩
    simp only [capacity?_of_limit hlimit hint, Value.atMost_int, hfree, decide_false, Bool.false_eq_true, ↓reduceIte]
    rfl
  | _ => simp [hint, Value.isLimit] at hlimit

theorem resolveTarget_of_bars (hs : s.IsSound) (hk : s.IsConsistent) (he : e ∈ s.entries)
    (hid : Column.checkInt id = .ok ()) (h : Bars s e id) : ∃ reason, resolveTarget e (.int id) s =
      .error (.refused (.invalidTarget (.int e.id) (.int id) (.text reason))) := by
  cases h with
  | missing h => exact ⟨_, resolveTarget_of_elsewhere hs hk he hid (by simp [h])⟩
  | elsewhere found h =>
    refine ⟨_, resolveTarget_of_elsewhere hs hk he hid ?_⟩
    intro target' found'
    rw [found] at found'
    cases found'
    exact h
  | forbidden way h =>
    obtain ⟨reason?, hrefusal, hiff⟩ := way.exists_moveRefusal? hs hk he
    obtain ⟨reason, rfl⟩ := Option.isSome_iff_exists.mp (hiff.mpr h)
    exact ⟨reason, resolveTarget_of_forbids way hid hrefusal⟩

theorem resolveTarget_of_not_bars (hs : s.IsSound) (hk : s.IsConsistent) (he : e ∈ s.entries)
    (hid : Column.checkInt id = .ok ()) (hfound : s.stage? id = some target) (h : ¬Bars s e id) :
    (IsFull s target → resolveTarget e (.int id) s =
        .error (.refused (.capacityReached (.int e.id) (.int target.id) target.limit))) ∧
      (¬IsFull s target → resolveTarget e (.int id) s = .ok target) := by
  have hpipeline : target.pipeline = e.pipeline :=
    Decidable.byContradiction fun hother => h (.elsewhere hfound hother)
  obtain ⟨p, current, way⟩ := exists_isWay hs hk he hfound hpipeline
  obtain ⟨reason?, hrefusal, hiff⟩ := way.exists_moveRefusal? hs hk he
  have hlimit := hs.limits target (hs.stage?_eq_some.mp hfound).1
  cases reason? with
  | some reason => exact absurd (.forbidden way (hiff.mp rfl)) h
  | none => exact ⟨resolveTarget_of_full way hid hrefusal hlimit, resolveTarget_of_room way hid hrefusal hlimit⟩

end

end Advancement

/-! ## Criteria that are not met -/

theorem Verdict.canAdvance_cons (o : Outcome) (outcomes : List Outcome) :
    Verdict.canAdvance ⟨o :: outcomes⟩ ↔ (o.check.isMandatory → o.met) ∧ Verdict.canAdvance ⟨outcomes⟩ := by
  cases hmet : o.met <;> cases hmandatory : o.check.isMandatory <;>
    simp [canAdvance, blockers, only, Outcome.classification, Classification.of, hmet, hmandatory]

theorem Verdict.not_canAdvance_iff {facts : Facts} {flags : FlagTable} {checks : List Check} {v : Verdict}
    (h : Verdict.of facts flags checks = .ok v) : ¬v.canAdvance ↔
      ∃ check ∈ checks, check.isMandatory ∧ check.isMet facts (flags.of check.id) = .ok false := by
  induction checks generalizing v with
  | nil =>
    cases h
    simp [canAdvance, blockers, only]
  | cons check checks ih =>
    unfold Verdict.of at h
    dsimp only at h
    split at h
    . cases h
    . simp only [bind_eq_ok, pure, Except.pure, Except.ok.injEq] at h
      obtain ⟨met, hmet, rest, hrest, rfl⟩ := h
      rw [canAdvance_cons, Classical.not_and_iff_not_or_not, ih hrest]
      simp only [List.mem_cons, exists_eq_or_imp, hmet, Except.ok.injEq]
      cases met <;> simp

theorem Check.of_ofParts {id name mandatory : Value} {kind : Kind} {rule : Option Rule} {check : Check}
    (h : ofParts id name kind mandatory rule = .ok check) : check.id = id ∧ check.mandatory = mandatory := by
  unfold ofParts at h
  split at h <;> cases h <;> exact ⟨rfl, rfl⟩

theorem CheckSource.of_compile {source : CheckSource} {check : Check} (h : source.compile = .ok check) :
    check.id = source.id ∧ check.mandatory = .bool source.mandatory := by
  unfold compile at h
  split at h
  . rw [bind_eq_ok] at h
    obtain ⟨rule, -, h⟩ := h
    exact Check.of_ofParts h
  . cases h

/-- What was ticked off and approved about a criterion for a lead. -/
def Store.flagsOf (s : Store) (lead criterion : Int) : Flags :=
  ((s.flags.find? fun r => r.lead = lead && r.criterion = criterion).map fun r => ⟨r.done, r.approved⟩).getD .none

theorem Store.flagsFor_of {s : Store} {lead criterion : Int} {isWanted : Int → Bool} (h : isWanted criterion) :
    (s.flagsFor lead isWanted).of (.int criterion) = s.flagsOf lead criterion := by
  unfold FlagTable.of flagsFor flagsOf
  rw [List.find?_map, List.find?_filter, Option.map_map]
  congr 2
  apply List.find?_congr
  intro r _
  simp only [Function.comp_apply, Value.same_int]
  rw [Bool.eq_iff_iff]
  grind

/-- The flags that a check is judged with, if those for all checks are looked up together. -/
theorem Store.flagsFor_of_mem {s : Store} {lead id : Int} {checks : List Check} {check : Check} (hmem : check ∈ checks)
    (hid : check.id = .int id) :
    (s.flagsFor lead fun id => checks.any (·.id = .int id)).of check.id = s.flagsOf lead id := by
  rw [hid]
  apply flagsFor_of
  rw [List.any_eq_true]
  exact ⟨check, hmem, by simp [hid]⟩

theorem Store.flagsOn_eq_ok {s : Store} {lead : Int} {checks : List Check} {flags : FlagTable} :
    s.flagsOn lead checks = .ok flags ↔
      checks.length < mostVariables ∧ (s.flagsFor lead fun id => checks.any (·.id = .int id)) = flags := by
  unfold flagsOn checkVariables
  rw [← Nat.succ_le_iff]
  split <;> simp [bind, Except.bind, pure, Except.pure, *]

namespace Advancement

/-- A criterion that keeps an entry in its stage. -/
structure IsUnmet (s : Store) (e : Entry) (facts : Facts) (x : Criterion) : Prop where
  mem : x ∈ s.criteria
  stage : x.stage = e.stage
  isActive : x.isActive
  isMandatory : x.mandatory
  unmet : ∃ check, x.source.compile = .ok check ∧ check.isMet facts (s.flagsOf e.lead x.id) = .ok false

/-- What the criteria of a stage are judged on. -/
def factsOf (c : Call) (e : Entry) (k : Knowledge) (sla : Health) (s : Store) : Except Fault Facts := do
  let context ← contextOf (sla.metrics e.enrolledAt c.now) k.context
  let snapshot ← snapshotOf e k.snapshot s
  return ⟨snapshot, .object context⟩

theorem of_judge {c : Call} {e : Entry} {k : Knowledge} {s : Store} {verdict : Verdict} {sla : Health}
    (h : judge c e k s = .ok (verdict, sla)) :
    s.healthOf c.window c.now e = .ok sla ∧ ∃ facts, factsOf c e k sla s = .ok facts ∧
      (¬verdict.canAdvance ↔ ∃ x, IsUnmet s e facts x) := by
  rw [judge_universal] at h
  simp only [bind_eq_ok, pure, Except.pure, Except.ok.injEq, Prod.mk.injEq] at h
  obtain ⟨checks, hchecks, sla, hsla, context, hcontext, snapshot, hsnapshot, flags, hflags, verdict, hverdict, rfl,
    rfl⟩ := h
  obtain ⟨-, rfl⟩ := Store.flagsOn_eq_ok.mp hflags
  refine ⟨hsla, ⟨snapshot, .object context⟩, ?_, ?_⟩
  . simp [factsOf, hcontext, hsnapshot, bind, Except.bind, pure, Except.pure]
  . have hcheck : ∀ (x : Criterion) check, check ∈ checks → x.source.compile = .ok check →
        (check.isMandatory ↔ x.mandatory) ∧
          (s.flagsFor e.lead fun id => checks.any (·.id = .int id)).of check.id = s.flagsOf e.lead x.id := by
      intro x check hmem hcompile
      obtain ⟨hid, hmandatory⟩ := CheckSource.of_compile hcompile
      refine ⟨?_, Store.flagsFor_of_mem hmem hid⟩
      rw [Check.isMandatory, hmandatory]
      rfl
    rw [Verdict.not_canAdvance_iff hverdict]
    constructor
    . rintro ⟨check, hmem, hmandatory, hmet⟩
      obtain ⟨source, hsource, hcompile⟩ := (mem_iff_of_mapM_eq_ok hchecks).mp hmem
      obtain ⟨x, hx, hstage, hactive, rfl⟩ := Store.mem_sourcesOf.mp hsource
      obtain ⟨hiff, hflags⟩ := hcheck x check hmem hcompile
      rw [hflags] at hmet
      exact ⟨x, hx, hstage, hactive, hiff.mp hmandatory, check, hcompile, hmet⟩
    . rintro ⟨x, hx, hstage, hactive, hmandatory, check, hcompile, hmet⟩
      have hsource := Store.mem_sourcesOf.mpr ⟨x, hx, hstage, hactive, rfl⟩
      have hmem := (mem_iff_of_mapM_eq_ok hchecks).mpr ⟨x.source, hsource, hcompile⟩
      obtain ⟨hiff, hflags⟩ := hcheck x check hmem hcompile
      rw [← hflags] at hmet
      exact ⟨check, hmem, hiff.mpr hmandatory, hmet⟩

end Advancement

end StageGate
