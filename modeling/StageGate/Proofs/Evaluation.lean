import StageGate.Proofs.Cache
import StageGate.Proofs.FlagRows

/-!
This module contains what evaluations say about criteria that are settled by hand. The evaluation that a move
answers is the one that is shown in advance; it judges every active criterion of the stage, by the flags of the
lead alone if these settle it.
-/

namespace StageGate

open Operation Flagging

/-! ## Answers of operations -/

namespace Operation

variable {α β : Type} {s : Service} {a : α}

theorem exists_of_reading_bind {g : Store → Except Fault β} {f : β → Operation α} {after : Service}
    (h : (reading g >>= f) s = (.ok a, after)) : ∃ b, g s.store = .ok b ∧ f b s = (.ok a, after) := by
  have hread := reading_eq g s
  cases hg : g s.store with
  | error e =>
    rw [hg] at hread
    rw [bind_of_error hread] at h
    cases h
  | ok b =>
    rw [hg] at hread
    rw [bind_of_ok hread] at h
    exact ⟨b, rfl, h⟩

theorem exists_of_holding {enter : LockTable → Except Fault Unit × LockTable} {release : LockTable → LockTable}
    {body : Operation α} {after : Service} (h : holding enter release body s = (.ok a, after)) :
    ∃ locks after', body { s with locks } = (.ok a, after') ∧ after'.store = after.store := by
  unfold holding at h
  rcases henter : enter s.locks.table with ⟨entered, table⟩
  rw [henter] at h
  cases entered with
  | error e => cases h
  | ok _ =>
    dsimp only at h
    rcases hbody : body { s with locks := { s.locks with table } } with ⟨r, after'⟩
    rw [hbody, Prod.mk.injEq] at h
    obtain ⟨rfl, rfl⟩ := h
    exact ⟨_, after', hbody, rfl⟩

end Operation

namespace Advancement

variable {c : ZonedCall} {e : Entry} {k : Knowledge} {s : Service} {entry : Value}

/-- The verdict that is shown in advance, as it is without a cache. -/
def previewing (c : ZonedCall) (entry : Value) (k : Knowledge) (s : Store) : Except Fault Verdict := do
  let e ← s.entry entry
  if e.isActive then return (← judge c e k s).1
  else throw (.refused (.notActive (.int e.id) (.text e.status.name)))

theorem preview_eq (hs : s.IsTrusty) : (preview c entry k s).1 = previewing c entry k s.store := by
  have hread := reading_eq (·.entry entry) s
  unfold preview previewing
  cases hentry : s.store.entry entry with
  | error f =>
    rw [hentry] at hread
    rw [bind_of_error hread]
    rfl
  | ok e =>
    rw [hentry] at hread
    rw [bind_of_ok hread]
    cases hactive : e.isActive with
    | false =>
      have hstop : requireActive e s = (.error (.refused (.notActive (.int e.id) (.text e.status.name))), s) := by
        rw [requireActive, hactive]
        rfl
      rw [bind_of_error hstop]
      simp only [bind, Except.bind, hactive]
      rfl
    | true =>
      have hgo : requireActive e s = (.ok (), s) := by
        rw [requireActive, hactive]
        rfl
      obtain ⟨s', hjudge, -⟩ := does_evaluateExit hs (c := c) e k
      rw [Transaction.result_reading] at hjudge
      rw [bind_of_ok hgo]
      simp only [bind, Except.bind, hactive, ↓reduceIte]
      cases hresult : judge c e k s.store with
      | error f =>
        rw [hresult] at hjudge
        exact congrArg Prod.fst (bind_of_error hjudge _)
      | ok r =>
        rw [hresult] at hjudge
        exact congrArg Prod.fst (bind_of_ok hjudge _)

theorem judge_of_previewing {store : Store} {v : Verdict} (he : store.entry entry = .ok e)
    (h : previewing c entry k store = .ok v) : ∃ sla, judge c e k store = .ok (v, sla) := by
  simp only [previewing, he, bind, Except.bind] at h
  split at h
  . cases hjudge : judge c e k store with
    | error f =>
      rw [hjudge] at h
      cases h
    | ok r =>
      rw [hjudge] at h
      cases h
      exact ⟨r.2, rfl⟩
  . cases h

theorem verdict_of_move {current target : Stage} {verdict : Verdict} {sla : Health} {note : Value} {m : Move}
    {store store' : Store} (h : move c e current target verdict sla note store = .ok (m, store')) :
    m.verdict = verdict := by
  simp only [move, Transaction.bind_eq_ok, Transaction.pure_eq_ok] at h
  obtain ⟨_, _, -, _, _, -, _, _, -, _, _, -, _, _, -, _, _, -, rfl, -⟩ := h
  rfl

theorem judge_of_advancingHeld {target note : Value} {m : Move} {store store' : Store}
    (h : advancingHeld c e target k note store = .ok (m, store')) :
    e.isActive ∧ ∃ sla, judge c e k store = .ok (m.verdict, sla) := by
  simp only [advancingHeld, Transaction.bind_eq_ok, Transaction.demand_eq_ok, Transaction.reading_eq_ok] at h
  obtain ⟨_, _, ⟨hactive, rfl⟩, stage, _, ⟨-, rfl⟩, current, _, ⟨-, rfl⟩, ⟨verdict, sla⟩, _, ⟨hjudge, rfl⟩, h⟩ := h
  refine ⟨hactive, sla, ?_⟩
  dsimp only at h
  split at h
  . rwa [verdict_of_move h]
  . simp only [Transaction.bind_eq_ok, Transaction.pure_eq_ok] at h
    obtain ⟨view, _, -, rfl, -⟩ := h
    exact hjudge

/-- A move that answers has done what its transaction does, whoever holds the other locks. -/
theorem advancing_of_advance (hs : s.IsTrusty) {target note : Value} {m : Move} {after : Service}
    (h : advance c entry target k note s = (.ok m, after)) :
    advancing c entry target k note s.store = .ok (m, after.store) := by
  unfold advance at h
  obtain ⟨e, he, h⟩ := exists_of_reading_bind h
  obtain ⟨left, -, h⟩ := exists_of_reading_bind h
  obtain ⟨locks, after', h, hstore⟩ := exists_of_holding h
  obtain ⟨capped, -, h⟩ := exists_of_reading_bind h
  have hheld : advancingHeld c e target k note s.store = .ok (m, after'.store) := by
    cases capped with
    | none => exact (does_advanceHeld (hs.locked locks) e target k note).of_answer h
    | some stage =>
      obtain ⟨locks', after'', h, hstore'⟩ := exists_of_holding h
      rw [← hstore']
      exact (does_advanceHeld (hs.locked locks') e target k note).of_answer h
  unfold advancing
  rw [Transaction.reading_bind_of_ok he, hheld, hstore]

theorem verdict_of_advance (hs : s.IsTrusty) {target note : Value} {m : Move}
    (h : (advance c entry target k note s).1 = .ok m) : previewing c entry k s.store = .ok m.verdict := by
  have hdone := advancing_of_advance hs (Prod.ext h rfl)
  obtain ⟨e, _, hread, hheld⟩ := Transaction.bind_eq_ok.mp hdone
  obtain ⟨he, rfl⟩ := Transaction.reading_eq_ok.mp hread
  obtain ⟨hactive, sla, hjudge⟩ := judge_of_advancingHeld hheld
  simp only [previewing, he, hactive, hjudge, bind, Except.bind, ↓reduceIte, pure, Except.pure]

end Advancement

/-! ## Outcomes of criteria -/

theorem Outcome.classification_eq_passed {o : Outcome} : o.classification = .passed ↔ o.met = true := by
  unfold classification Classification.of
  cases o.met <;> cases o.check.isMandatory <;> simp

namespace Verdict

variable {facts : Facts} {flags flags' : FlagTable} {checks : List Check} {v : Verdict}

theorem outcomes_of (h : Verdict.of facts flags checks = .ok v) : v.outcomes.map (·.check) = checks ∧
    ∀ o ∈ v.outcomes, o.check.isMet facts (flags.of o.check.id) = .ok o.met := by
  induction checks generalizing v with
  | nil =>
    cases h
    simp
  | cons check checks ih =>
    unfold Verdict.of at h
    dsimp only at h
    split at h
    . cases h
    . simp only [bind_eq_ok, pure, Except.pure, Except.ok.injEq] at h
      obtain ⟨met, hmet, rest, hrest, rfl⟩ := h
      obtain ⟨hchecks, houtcomes⟩ := ih hrest
      exact ⟨by simp [hchecks], List.forall_mem_cons.mpr ⟨hmet, houtcomes⟩⟩

/-- A verdict in which a criterion is met or not, whatever was found out about it. -/
def settle (v : Verdict) (id : Int) (met : Bool) : Verdict :=
  ⟨v.outcomes.map fun o => if o.check.id = .int id then { o with met } else o⟩

theorem of_congr (h : ∀ check ∈ checks, flags'.of check.id = flags.of check.id) :
    Verdict.of facts flags' checks = Verdict.of facts flags checks := by
  induction checks with
  | nil => rfl
  | cons check checks ih =>
    rw [List.forall_mem_cons] at h
    rw [Verdict.of, Verdict.of, h.1, ih h.2]

theorem of_settle {id : Int} {met : Bool}
    (hothers : ∀ check ∈ checks, check.id ≠ .int id → flags'.of check.id = flags.of check.id)
    (hthis : ∀ check ∈ checks, check.id = .int id → check.isMet facts (flags'.of check.id) = .ok met ∧
      ∃ b, check.isMet facts (flags.of check.id) = .ok b) :
    Verdict.of facts flags' checks = (Verdict.of facts flags checks).map (·.settle id met) := by
  induction checks with
  | nil => rfl
  | cons check checks ih =>
    rw [List.forall_mem_cons] at hothers hthis
    rw [Verdict.of, Verdict.of, ih hothers.2 hthis.2]
    by_cases hid : check.id = .int id
    . obtain ⟨hmet, b, hb⟩ := hthis.1 hid
      rw [hmet, hb]
      cases check.id.isKey with
      | false => rfl
      | true =>
        cases Verdict.of facts flags checks with
        | error f => rfl
        | ok rest => simp [settle, hid, bind, Except.bind, pure, Except.pure, Except.map]
    . rw [hothers.1 hid]
      cases check.id.isKey with
      | false => rfl
      | true =>
        cases check.isMet facts (flags.of check.id) with
        | error f => rfl
        | ok b =>
          cases Verdict.of facts flags checks with
          | error f => rfl
          | ok rest => simp [settle, hid, bind, Except.bind, pure, Except.pure, Except.map]

end Verdict

/-! ## Criteria that are settled by hand -/

theorem CheckSource.isMet_of_compile {x : Criterion} {check : Check} {flag : Flag} (h : x.source.compile = .ok check)
    (hkind : x.kind = flag.kind.name) (facts : Facts) (f : Flags) : check.isMet facts f = .ok (flag.get f) := by
  have hofValue : Kind.ofValue? x.source.kind = some flag.kind := by
    simp [Criterion.source, Kind.ofValue?, hkind]
  unfold compile at h
  simp only [hofValue, bind_eq_ok] at h
  obtain ⟨rule, -, h⟩ := h
  cases flag <;> cases h <;> rfl

namespace Store

/-- The criteria have rising ids. -/
def HasRisingCriteria (s : Store) : Prop :=
  (s.criteria.map (·.id)).Pairwise (· < ·)

theorem closed_hasRisingCriteria (tables : List Table) : Closed HasRisingCriteria tables where
  entries := fun _ _ _ h => h
  leads := fun _ _ _ h => h
  pipelines := fun _ _ _ h => h
  stages := fun _ _ _ h => h
  added := by
    intro _ s stage c hnew h
    unfold HasRisingCriteria
    rw [List.map_append, List.map_cons, List.map_nil, hnew.id]
    exact pairwise_lt_concat h
  updated := by
    intro _ s c new _ _ h
    unfold HasRisingCriteria
    rw [map_id_put (·.id) s.criteria new]
    exact h
  flags := fun _ _ _ h => h

end Store

namespace Advancement

variable {c : ZonedCall} {e : Entry} {k : Knowledge} {s : Store} {v : Verdict} {sla : Health}

theorem outcomes_of_judge (hc : s.HasRisingCriteria) (h : judge c e k s = .ok (v, sla)) {x : Criterion}
    (hx : x ∈ s.criteria) (hstage : x.stage = e.stage) (hactive : x.isActive) {flag : Flag}
    (hkind : x.kind = flag.kind.name) : (∃ o ∈ v.outcomes, o.check.id = .int x.id) ∧
      ∀ o ∈ v.outcomes, o.check.id = .int x.id → o.met = flag.get (s.flagsOf e.lead x.id) := by
  simp only [judge, bind_eq_ok, pure, Except.pure, Except.ok.injEq, Prod.mk.injEq] at h
  obtain ⟨checks, hchecks, now, -, sla, -, context, -, snapshot, -, flags, hflags, verdict, hverdict, rfl, rfl⟩ := h
  obtain ⟨-, rfl⟩ := Store.flagsOn_eq_ok.mp hflags
  obtain ⟨houtcomes, hmet⟩ := Verdict.outcomes_of hverdict
  constructor
  . have hsource := Store.mem_sourcesOf.mpr ⟨x, hx, hstage, hactive, rfl⟩
    obtain ⟨check, hcheck, hcompile⟩ := exists_of_mapM_eq_ok hchecks hsource
    rw [← houtcomes, List.mem_map] at hcheck
    obtain ⟨o, ho, rfl⟩ := hcheck
    exact ⟨o, ho, (CheckSource.of_compile hcompile).1⟩
  . intro o ho hid
    have hmem : o.check ∈ checks := by
      rw [← houtcomes]
      exact List.mem_map_of_mem ho
    obtain ⟨source, hsource, hcompile⟩ := (mem_iff_of_mapM_eq_ok hchecks).mp hmem
    obtain ⟨y, hy, -, -, rfl⟩ := Store.mem_sourcesOf.mp hsource
    have hyid : o.check.id = .int y.id := (CheckSource.of_compile hcompile).1
    rw [hid, Value.int.injEq] at hyid
    rw [← Store.eq_of_id_eq hc hx hy hyid] at hcompile
    have hflag := CheckSource.isMet_of_compile hcompile hkind ⟨snapshot, .object context⟩ (s.flagsOf e.lead x.id)
    have hmet := hmet o ho
    rw [Store.flagsFor_of_mem hmem hid, hflag, Except.ok.injEq] at hmet
    exact hmet.symm

/-- What becomes of a verdict when the flags of one criterion are written for one lead. -/
theorem verdict_of_put (hc : s.HasRisingCriteria) {s' : Store} {lead : Int} {x : Criterion} {flag : Flag} {value : Bool}
    (hx : x ∈ s.criteria) (hkind : x.kind = flag.kind.name)
    (hput : s.IsPut flag value lead x.id s')
    {checks : List Check} (hchecks : CheckSource.compileAll (s.sourcesOf e.stage) = .ok checks) (facts : Facts) :
    Verdict.of facts (s'.flagsFor e.lead fun id => checks.any (·.id = .int id)) checks =
      (Verdict.of facts (s.flagsFor e.lead fun id => checks.any (·.id = .int id)) checks).map fun v =>
        if e.lead = lead then v.settle x.id value else v := by
  have hcriterion : ∀ check ∈ checks, ∃ y ∈ s.criteria, check.id = .int y.id ∧ y.source.compile = .ok check := by
    intro check hmem
    obtain ⟨source, hsource, hcompile⟩ := (mem_iff_of_mapM_eq_ok hchecks).mp hmem
    obtain ⟨y, hy, -, -, rfl⟩ := Store.mem_sourcesOf.mp hsource
    exact ⟨y, hy, (CheckSource.of_compile hcompile).1, hcompile⟩
  by_cases hlead : e.lead = lead
  . simp only [hlead, ↓reduceIte]
    apply Verdict.of_settle
    . intro check hmem hne
      obtain ⟨y, hy, hid, -⟩ := hcriterion check hmem
      have hother : y.id ≠ x.id := by
        intro hsame
        rw [hid, hsame] at hne
        exact hne rfl
      rw [Store.flagsFor_of_mem hmem hid, Store.flagsFor_of_mem hmem hid, hput, if_neg fun h => hother h.2]
    . intro check hmem hid
      obtain ⟨y, hy, hyid, hcompile⟩ := hcriterion check hmem
      rw [hid, Value.int.injEq] at hyid
      rw [← Store.eq_of_id_eq hc hx hy hyid] at hcompile
      have hmet := CheckSource.isMet_of_compile hcompile hkind facts
      rw [Store.flagsFor_of_mem hmem hid, Store.flagsFor_of_mem hmem hid, hput, if_pos ⟨rfl, rfl⟩, hmet, hmet,
        Flag.get_put, if_pos rfl]
      exact ⟨rfl, _, rfl⟩
  . simp only [hlead, ↓reduceIte]
    rw [Verdict.of_congr]
    . cases Verdict.of facts (s.flagsFor e.lead fun id => checks.any (·.id = .int id)) checks <;> rfl
    . intro check hmem
      obtain ⟨y, -, hid, -⟩ := hcriterion check hmem
      rw [Store.flagsFor_of_mem hmem hid, Store.flagsFor_of_mem hmem hid, hput, if_neg fun h => hlead h.1]

theorem judge_of_put (hc : s.HasRisingCriteria) {flags : List FlagRow} {audit : List AuditRow} {lead : Int} {x : Criterion}
    {flag : Flag} {value : Bool} (hx : x ∈ s.criteria) (hkind : x.kind = flag.kind.name)
    (hput : s.IsPut flag value lead x.id { s with flags, audit }) :
    judge c e k { s with flags, audit } = (judge c e k s).map fun (v, sla) =>
      (if e.lead = lead then v.settle x.id value else v, sla) := by
  have hsources : Store.sourcesOf { s with flags, audit } e.stage = s.sourcesOf e.stage := rfl
  have hhealth (now : Instant) : Store.healthOf { s with flags, audit } c.window now e = s.healthOf c.window now e :=
    rfl
  have hsnapshot : snapshotOf e k.snapshot { s with flags, audit } = snapshotOf e k.snapshot s := rfl
  unfold judge
  simp only [hsources, hhealth, hsnapshot]
  -- Up to the flags the two judgements are the same, and so is the fault if one of these steps fails.
  cases hchecks : CheckSource.compileAll (s.sourcesOf e.stage) with
  | error f => rfl
  | ok checks =>
    simp only [bind, Except.bind]
    cases c.now.instant with
    | error f => rfl
    | ok now =>
      dsimp only
      cases s.healthOf c.window now e with
      | error f => rfl
      | ok sla =>
        dsimp only
        cases contextOf (sla.metrics e.enrolledAt now) k.context with
        | error f => rfl
        | ok context =>
          dsimp only
          cases snapshotOf e k.snapshot s with
          | error f => rfl
          | ok snapshot =>
            simp only [Store.flagsOn, bind, Except.bind, pure, Except.pure]
            cases Store.checkVariables (checks.length + 1) with
            | error f => rfl
            | ok _ =>
              dsimp only
              rw [verdict_of_put hc hx hkind hput hchecks ⟨snapshot, .object context⟩]
              cases Verdict.of ⟨snapshot, .object context⟩
                (s.flagsFor e.lead fun id => checks.any (·.id = .int id)) checks <;> rfl

theorem previewing_of_put (hc : s.HasRisingCriteria) {flags : List FlagRow} {audit : List AuditRow} {lead : Int}
    {x : Criterion} {flag : Flag} {value : Bool} {entry : Value} (hx : x ∈ s.criteria) (hkind : x.kind = flag.kind.name)
    (hput : s.IsPut flag value lead x.id { s with flags, audit })
    (he : s.entry entry = .ok e) : previewing c entry k { s with flags, audit } =
      (previewing c entry k s).map fun v => if e.lead = lead then v.settle x.id value else v := by
  have he' : Store.entry { s with flags, audit } entry = .ok e := he
  unfold previewing
  rw [he, he']
  simp only [bind, Except.bind, judge_of_put hc hx hkind hput]
  cases e.isActive with
  | false => rfl
  | true => cases judge c e k s <;> rfl

end Advancement

end StageGate
