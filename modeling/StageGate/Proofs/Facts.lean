import StageGate.Proofs.Breakdowns
import StageGate.Proofs.Handling
import StageGate.Proofs.Totality

/-!
This module contains that criteria which no leaf stumbles over can be judged: the facts about a lead and its stay in
a stage are documents, so that a breakdown of the judgement is one of a leaf that it comes to.
-/

namespace StageGate

/-! ## Members of documents -/

namespace Value

variable {fields others : Fields}

theorem isJson_of_mem (h : haveJson fields) {f : String × Value} (hf : f ∈ fields) : f.2.isJson := by
  induction fields with
  | nil => cases hf
  | cons g gs ih =>
    obtain ⟨k, w⟩ := g
    simp only [haveJson, Bool.and_eq_true] at h
    rcases List.mem_cons.mp hf with rfl | hf
    . exact h.1.2
    . exact ih h.2 hf

theorem haveJson_merge (h : haveJson fields) (ho : ∀ f ∈ others, f.2.isJson) : haveJson (fields.merge others) := by
  induction others generalizing fields with
  | nil => exact h
  | cons f fs ih =>
    rw [List.forall_mem_cons] at ho
    exact ih (haveJson_set h ho.1 f.1) ho.2

theorem haveJson_toFields {name? : Value → Option String} {members : Members} (h : ∀ m ∈ members, m.2.isJson) :
    haveJson (Members.toFields name? members) := by
  apply haveJson_merge rfl
  intro f hf
  obtain ⟨⟨n, v⟩, hm, hname⟩ := List.mem_filterMap.mp hf
  obtain ⟨name, -, rfl⟩ := Option.map_eq_some_iff.mp hname
  exact h (n, v) hm

theorem exists_members_of_isJson {v : Value} (h : v.IsObjectIfAny) (hv : v.isJson) :
    ∃ members, v.asMembers = .ok members ∧ ∀ m ∈ members, m.2.isJson := by
  obtain ⟨members, hmembers⟩ := Api.exists_asMembers h
  refine ⟨members, hmembers, ?_⟩
  unfold asMembers at hmembers
  rcases h with rfl | ⟨fields, rfl⟩
  . cases hmembers
    simp
  . split at hmembers
    . cases hmembers
      simp
    . cases hmembers
      intro m hm
      obtain ⟨f, hf, rfl⟩ := List.mem_map.mp hm
      exact isJson_of_mem hv hf

theorem isJson_ofText? (s : Option String) : (ofText? s).isJson := by
  cases s <;> rfl

end Value

/-! ## Facts -/

/-- A lead of which the custom fields and the score are as a document can have them. -/
structure Lead.IsDocument (l : Lead) : Prop where
  fields : l.custom.IsObjectIfAny
  custom : l.custom.isJson
  score : l.score.isJson

theorem Lead.IsDocument.exists_snapshot {l : Lead} (h : l.IsDocument) :
    ∃ snapshot, l.snapshot = .ok snapshot ∧ Value.haveJson snapshot := by
  obtain ⟨members, hmembers, hjson⟩ := Value.exists_members_of_isJson h.fields h.custom
  refine ⟨Fields.merge (Members.toFields Value.asText? members) l.core, ?_, ?_⟩
  . unfold snapshot snapshotOf
    rw [hmembers]
    rfl
  . apply Value.haveJson_merge (Value.haveJson_toFields hjson)
    intro f hf
    simp only [core, List.mem_cons, List.not_mem_nil, or_false] at hf
    rcases hf with rfl | rfl | rfl | rfl | rfl | rfl | rfl
    all_goals first | rfl | exact Value.isJson_ofText? _ | exact h.score

theorem Standing.overdue_of {elapsed n : Int} {window : Value} {standing : Standing}
    (h : Standing.of (.int elapsed) (.int n) window = .ok standing) : standing.overdue = .int (max 0 (elapsed - n)) := by
  unfold Standing.of at h
  simp only [Value.sub_int, Value.positivePart_int, Value.lt_int, bind, Except.bind, pure, Except.pure] at h
  repeat' split at h
  all_goals cases h
  all_goals rfl

theorem Health.days_of {entered now : Instant} {deadline window : Value} {health : Health}
    (h : of entered now deadline window = .ok health) : health.elapsed = entered.wholeDays now ∧
      ∀ n, deadline = .int n → health.overdue = .int (max 0 (entered.wholeDays now - n)) ∧
        health.remaining = .int (n - entered.wholeDays now) := by
  simp only [of, bind_eq_ok, pure, Except.pure, Except.ok.injEq] at h
  obtain ⟨standing, hstanding, due, -, remaining, hremaining, rfl⟩ := h
  refine ⟨rfl, ?_⟩
  rintro n rfl
  rw [Value.sub_int, Except.ok.injEq] at hremaining
  exact ⟨Standing.overdue_of hstanding, hremaining.symm⟩

theorem Health.haveJson_metrics {entered now : Instant} {deadline window : Value} {sla : Health}
    (hd : deadline.isDeadline) (h : Health.of entered now deadline window = .ok sla) (enrolled : Instant) :
    Value.haveJson (sla.metrics enrolled now) := by
  cases deadline with
  | int n =>
    simp only [Health.of, bind_eq_ok, pure, Except.pure, Except.ok.injEq, Value.sub_int] at h
    obtain ⟨standing, hstanding, due, -, remaining, rfl, rfl⟩ := h
    have hoverdue := Standing.overdue_of hstanding
    simp [metrics, overdue, hoverdue, Value.haveJson, Value.isJson, Fields.has, Fields.get?]
  | _ => simp [Value.isDeadline] at hd

namespace Store

def HasDocumentLeads (s : Store) : Prop :=
  ∀ l ∈ s.leads, l.IsDocument

end Store

/-! ## Judgements -/

namespace Advancement

variable {c : Call} {s : Store} {e : Entry} {k : Knowledge} {sla : Health}

theorem exists_factsOf (hk : s.IsConsistent) (hleads : s.HasDocumentLeads) (he : e ∈ s.entries) (hsnapshot : k.snapshot = .null)
    (hcontext : k.context.IsObjectIfAny) (hjson : k.context.isJson) (hsla : s.healthOf c.window c.now e = .ok sla) :
    ∃ facts, factsOf c e k sla s = .ok facts ∧ facts.AreJson := by
  obtain ⟨members, hmembers, hgiven⟩ := Value.exists_members_of_isJson hcontext hjson
  obtain ⟨l, hl, hlead⟩ : ∃ l ∈ s.leads, s.lead? e.lead = some l := Store.exists_find?_of_mem_map (hk.leads e he).1
  obtain ⟨snapshot, hshot, hsnapjson⟩ := (hleads l hl).exists_snapshot
  have hmetrics : Value.haveJson (sla.metrics e.enrolledAt c.now) := by
    rw [Store.healthOf, bind_eq_ok] at hsla
    obtain ⟨stage, hstage, hhealth⟩ := hsla
    rw [Store.follow_eq_ok] at hstage
    exact Health.haveJson_metrics (hk.deadlines stage (List.mem_of_find?_eq_some hstage)) hhealth e.enrolledAt
  refine ⟨⟨.object snapshot, .object ((sla.metrics e.enrolledAt c.now).merge (Members.toFields Value.asText? members))⟩,
    ?_, ?_⟩
  . have hcontext : contextOf (sla.metrics e.enrolledAt c.now) k.context =
        .ok ((sla.metrics e.enrolledAt c.now).merge (Members.toFields Value.asText? members)) := by
      unfold contextOf
      rw [hmembers]
      rfl
    have hsnap : snapshotOf e k.snapshot s = .ok (.object snapshot) := by
      unfold snapshotOf
      rw [hsnapshot, hlead]
      change (l.snapshot >>= fun x => pure (Value.object x)) = _
      rw [hshot]
      rfl
    unfold factsOf
    rw [hcontext, hsnap]
    rfl
  . refine ⟨hsnapjson, Value.haveJson_merge hmetrics ?_⟩
    intro f hf
    exact Value.isJson_of_mem (Value.haveJson_toFields hgiven) hf

/--
The flags of the criteria of the stage of an entry can be asked for together, and no leaf stumbles that their judgement
comes to.
-/
def CanJudge (c : Call) (e : Entry) (k : Knowledge) (s : Store) : Prop :=
  ∀ checks sla facts, CheckSource.compileAll (s.sourcesOf e.stage) = .ok checks →
    s.healthOf c.window c.now e = .ok sla → factsOf c e k sla s = .ok facts →
    checks.length < Store.mostVariables ∧ ∀ check ∈ checks, ∀ l, check.Judges facts l → ¬l.Stumbles facts

theorem CanJudge.not_misjudges (h : CanJudge c e k s) (hk : s.IsConsistent) (hl : s.HasDocumentLeads) (he : e ∈ s.entries)
    (hsnapshot : k.snapshot = .null) (hcontext : k.context.IsObjectIfAny) (hjson : k.context.isJson) (b : Breakdown) :
    ¬Misjudges c e k s b := by
  rintro ⟨checks, sla, hchecks, hsla, hverdict⟩
  obtain ⟨facts, hfacts, hare⟩ := exists_factsOf hk hl he hsnapshot hcontext hjson hsla
  obtain ⟨hfew, hleaves⟩ := h checks sla facts hchecks hsla hfacts
  unfold verdictOn at hverdict
  rw [hfacts, ok_bind, Store.flagsOn_eq_ok.mpr ⟨hfew, rfl⟩, ok_bind] at hverdict
  obtain ⟨verdict, hv⟩ := (Verdict.answers_of_compileAll hare hchecks _).mpr hleaves
  rw [hv] at hverdict
  cases hverdict

end Advancement

end StageGate
