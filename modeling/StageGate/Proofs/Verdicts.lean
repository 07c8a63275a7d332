import Mathlib.Data.List.Perm.Basic
import StageGate.Proofs.Totality

/-!
This module contains what a verdict makes of criteria. Each of them is met or not by its kind, and goes into one of
three lists, in the order in which they are given. Flags that are raised only take criteria out of the way, and
flags that no criterion asks for change nothing.
-/

namespace StageGate

/-! ## Criteria that are met -/

/-- Whether a rule is true on facts; one that fails on them is not. -/
def Rule.isTrueOn (facts : Facts) (r : Rule) : Bool :=
  (r.holds facts).toOption = some true

theorem Rule.holds_eq_isTrueOn {facts : Facts} {r : Rule} (h : Answers (r.holds facts)) :
    r.holds facts = .ok (r.isTrueOn facts) := by
  obtain ⟨b, hb⟩ := h
  rw [isTrueOn, hb]
  cases b <;> rfl

structure Flags.AtMost (f g : Flags) : Prop where
  done : f.done → g.done
  approved : f.approved → g.approved

namespace Check

/-- A criterion that is made of its parts, under an id that flags can be looked up by. -/
structure IsMade (c : Check) : Prop where
  key : c.id.isKey
  parts : ∃ rule, ofParts c.id c.name c.kind c.mandatory rule = .ok c

def isFulfilled (facts : Facts) (flags : Flags) (c : Check) : Bool :=
  match c.kind with
  | .checklist => flags.done
  | .manual => flags.approved
  | .automatic | .conditional => c.rule?.any (·.isTrueOn facts)

def AnswersOn (facts : Facts) (c : Check) : Prop :=
  ∀ rule, c.rule? = some rule → Answers (rule.holds facts)

/-- Flags that are the same where a criterion asks for them. -/
structure Agrees (c : Check) (f g : Flags) : Prop where
  done : c.kind = .checklist → f.done = g.done
  approved : c.kind = .manual → f.approved = g.approved

variable {c : Check} {facts : Facts} {f g : Flags}

theorem isMet_of_ofParts {id name mandatory : Value} {kind : Kind} {rule : Option Rule}
    (h : ofParts id name kind mandatory rule = .ok c) (ha : c.AnswersOn facts) (f : Flags) :
    c.isMet facts f = .ok (c.isFulfilled facts f) := by
  cases kind with
  | checklist | manual =>
    cases h
    rfl
  | automatic | conditional =>
    cases rule with
    | none => cases h
    | some rule =>
      cases h
      exact Rule.holds_eq_isTrueOn (ha rule rfl)

theorem IsMade.isMet_eq (h : c.IsMade) (ha : c.AnswersOn facts) (f : Flags) :
    c.isMet facts f = .ok (c.isFulfilled facts f) := by
  obtain ⟨rule, hparts⟩ := h.parts
  exact isMet_of_ofParts hparts ha f

theorem isFulfilled_congr (hfg : c.Agrees f g) (facts : Facts) : c.isFulfilled facts f = c.isFulfilled facts g := by
  unfold isFulfilled
  cases hkind : c.kind with
  | checklist => exact hfg.done hkind
  | manual => exact hfg.approved hkind
  | automatic | conditional => rfl

theorem isFulfilled_mono (hfg : f.AtMost g) (facts : Facts) (h : c.isFulfilled facts f) : c.isFulfilled facts g := by
  unfold isFulfilled at *
  cases hkind : c.kind with
  | checklist =>
    rw [hkind] at h
    exact hfg.done h
  | manual =>
    rw [hkind] at h
    exact hfg.approved h
  | automatic | conditional =>
    rw [hkind] at h
    exact h

end Check

/-! ## Verdicts on criteria that can be judged -/

theorem Verdict.perm_outcomes (v : Verdict) : (v.passed ++ v.blockers ++ v.warnings).Perm v.outcomes := by
  obtain ⟨outcomes⟩ := v
  induction outcomes with
  | nil => rfl
  | cons o outcomes ih =>
    simp only [passed, blockers, warnings, only, List.filter_cons] at ih ⊢
    cases o.classification with
    | passed => exact ih.cons o
    | blocker =>
      simp only [reduceCtorEq, decide_false, decide_true, Bool.false_eq_true, ↓reduceIte, List.append_assoc,
        List.cons_append] at ih ⊢
      exact List.perm_middle.trans (ih.cons o)
    | warning =>
      simp only [reduceCtorEq, decide_false, decide_true, Bool.false_eq_true, ↓reduceIte] at ih ⊢
      exact List.perm_middle.trans (ih.cons o)

namespace Verdict

variable {facts : Facts} {flags flags' : FlagTable} {checks checks' : List Check}

def told (facts : Facts) (flags : FlagTable) (checks : List Check) : Verdict :=
  ⟨checks.map fun c => ⟨c, c.isFulfilled facts (flags.of c.id)⟩⟩

theorem of_eq_told (hmade : ∀ c ∈ checks, c.IsMade) (ha : ∀ c ∈ checks, c.AnswersOn facts) (flags : FlagTable) :
    Verdict.of facts flags checks = .ok (told facts flags checks) := by
  induction checks with
  | nil => rfl
  | cons c checks ih =>
    rw [List.forall_mem_cons] at hmade ha
    rw [Verdict.of, hmade.1.key, hmade.1.isMet_eq ha.1, ih hmade.2 ha.2]
    rfl

theorem only_told {k : Classification} {p : Check → Bool} {met : Bool}
    (hp : ∀ c : Check, Classification.of (c.isFulfilled facts (flags.of c.id)) c.isMandatory = k ↔ p c)
    (hmet : ∀ c : Check, p c → c.isFulfilled facts (flags.of c.id) = met) :
    (told facts flags checks).only k = (checks.filter p).map (⟨·, met⟩) := by
  have hfilter : (told facts flags checks).only k =
      (checks.filter p).map fun c => ⟨c, c.isFulfilled facts (flags.of c.id)⟩ := by
    unfold only told
    rw [List.filter_map]
    congr 1
    apply List.filter_congr
    intro c _
    rw [Bool.eq_iff_iff, ← hp]
    exact decide_eq_true_iff
  rw [hfilter]
  apply List.map_congr_left
  intro c hc
  rw [hmet c (List.mem_filter.mp hc).2]

/--
What a verdict says of criteria: which of them are passed, which are in the way and which are only warned of. Each
of the lists keeps the order in which the criteria are given.
-/
structure Parts (v : Verdict) (facts : Facts) (flags : FlagTable) (checks : List Check) : Prop where
  passed : v.passed = (checks.filter fun c => c.isFulfilled facts (flags.of c.id)).map (⟨·, true⟩)
  blockers : v.blockers =
    (checks.filter fun c => !c.isFulfilled facts (flags.of c.id) && c.isMandatory).map (⟨·, false⟩)
  warnings : v.warnings =
    (checks.filter fun c => !c.isFulfilled facts (flags.of c.id) && !c.isMandatory).map (⟨·, false⟩)
  once : ((v.passed ++ v.blockers ++ v.warnings).map (·.check)).Perm checks
  canAdvance : v.canAdvance ↔ ∀ c ∈ checks, c.isMandatory → c.isFulfilled facts (flags.of c.id)

theorem parts_told (facts : Facts) (flags : FlagTable) (checks : List Check) :
    (told facts flags checks).Parts facts flags checks := by
  have hof (met mandatory : Bool) : (Classification.of met mandatory = .passed ↔ met) ∧
      (Classification.of met mandatory = .blocker ↔ !met && mandatory) ∧
      (Classification.of met mandatory = .warning ↔ !met && !mandatory) := by
    cases met <;> cases mandatory <;> decide
  have hblockers : (told facts flags checks).blockers =
      (checks.filter fun c => !c.isFulfilled facts (flags.of c.id) && c.isMandatory).map (⟨·, false⟩) :=
    only_told (fun c => (hof _ _).2.1) fun c hc => by simp_all
  refine ⟨only_told (fun c => (hof _ _).1) fun c hc => hc, hblockers,
    only_told (fun c => (hof _ _).2.2) fun c hc => by simp_all, ?_, ?_⟩
  . have hchecks : (told facts flags checks).outcomes.map (·.check) = checks := by
      rw [told, List.map_map]
      exact List.map_id checks
    have hperm := (perm_outcomes (told facts flags checks)).map (·.check)
    rwa [hchecks] at hperm
  . rw [canAdvance, hblockers, List.isEmpty_map, List.isEmpty_iff, List.filter_eq_nil_iff]
    refine forall₂_congr fun c _ => ?_
    cases c.isFulfilled facts (flags.of c.id) <;> cases c.isMandatory <;> simp

theorem perm_only_told (h : checks'.Perm checks) (k : Classification) :
    ((told facts flags checks').only k).Perm ((told facts flags checks).only k) :=
  (h.map _).filter _

/--
Every criterion goes into exactly one list of the verdict, the one that its being met or not and its being mandatory
or not call for. Criteria in another order are put into the same lists, in that order.
-/
theorem parted_in_order (hmade : ∀ c ∈ checks, c.IsMade) (ha : ∀ c ∈ checks, c.AnswersOn facts) (flags : FlagTable) :
    ∃ v, Verdict.of facts flags checks = .ok v ∧ v.Parts facts flags checks ∧
      ∀ checks', checks'.Perm checks → ∃ v', Verdict.of facts flags checks' = .ok v' ∧
        v'.Parts facts flags checks' ∧ v'.canAdvance = v.canAdvance ∧ ∀ k, (v'.only k).Perm (v.only k) := by
  have hparts := parts_told facts flags checks
  refine ⟨told facts flags checks, of_eq_told hmade ha flags, hparts, ?_⟩
  intro checks' hperm
  have hmem {c : Check} : c ∈ checks' ↔ c ∈ checks := hperm.mem_iff
  have hparts' := parts_told facts flags checks'
  refine ⟨told facts flags checks', of_eq_told (fun c hc => hmade c (hmem.mp hc)) (fun c hc => ha c (hmem.mp hc)) flags,
    hparts', ?_, perm_only_told hperm⟩
  rw [Bool.eq_iff_iff, hparts.canAdvance, hparts'.canAdvance]
  simp only [hmem]

def ofEachKind : List Check :=
  [⟨.int 1, .text "Intro call held", .checklist, .bool true, .done⟩,
    ⟨.int 2, .text "Budget signed off", .manual, .bool true, .approved⟩,
    ⟨.int 3, .text "Score is high", .automatic, .bool true, .holds (.leaf Rule.scoreLeaf)⟩,
    ⟨.int 4, .text "Referred", .conditional, .bool false, .holds (.leaf ⟨.entity, "referred", .equal, .bool true⟩)⟩]

theorem isMade_ofEachKind : ∀ c ∈ ofEachKind, c.IsMade := by
  have hmade {c : Check} (hkey : c.id.isKey) (hparts : Check.ofParts c.id c.name c.kind c.mandatory c.rule? = .ok c) :
      c.IsMade :=
    ⟨hkey, _, hparts⟩
  simp only [ofEachKind, List.forall_mem_cons]
  exact ⟨hmade rfl rfl, hmade rfl rfl, hmade rfl rfl, hmade rfl rfl, List.forall_mem_nil _⟩

theorem answersOn_ofEachKind : ∀ c ∈ ofEachKind, c.AnswersOn Rule.scored := by
  have hanswers : ∀ c ∈ ofEachKind, c.rule?.all fun rule => (rule.holds Rule.scored).isOk := by
    decide +kernel
  intro c hc rule hrule
  have hrule' := hanswers c hc
  rw [hrule] at hrule'
  exact exists_of_isOk hrule'

theorem parted_ofEachKind :
    ∃ v v', Verdict.of Rule.scored [(1, ⟨true, false⟩)] ofEachKind = .ok v ∧
      Verdict.of Rule.scored [(1, ⟨true, false⟩)] ofEachKind.reverse = .ok v' ∧
      v.passed.map (·.check.id) = [.int 1, .int 3] ∧ v'.passed.map (·.check.id) = [.int 3, .int 1] ∧
      v.blockers.map (·.check.id) = [.int 2] ∧ v.warnings.map (·.check.id) = [.int 4] ∧ v.canAdvance = false := by
  obtain ⟨v, hv, hparts, horders⟩ := parted_in_order isMade_ofEachKind answersOn_ofEachKind [(1, ⟨true, false⟩)]
  obtain ⟨v', hv', hparts', -⟩ := horders ofEachKind.reverse (List.reverse_perm ofEachKind)
  refine ⟨v, v', hv, hv', ?_, ?_, ?_, ?_, ?_⟩
  . rw [hparts.passed]
    decide +kernel
  . rw [hparts'.passed]
    decide +kernel
  . rw [hparts.blockers]
    decide +kernel
  . rw [hparts.warnings]
    decide +kernel
  . rw [canAdvance, hparts.blockers]
    decide +kernel

/-! ## Flags that are raised -/

theorem filter_sublist_filter {p q : Check → Bool} (h : ∀ c ∈ checks, p c → q c) :
    (checks.filter p).Sublist (checks.filter q) := by
  have hfilter : checks.filter p = (checks.filter q).filter p := by
    rw [List.filter_filter]
    apply List.filter_congr
    intro c hc
    rw [Bool.eq_iff_iff, Bool.and_eq_true]
    exact ⟨fun hp => ⟨hp, h c hc hp⟩, And.left⟩
  rw [hfilter]
  exact List.filter_sublist

/--
Flags that are raised take no criterion out of those that are passed and put none in the way. Flags that a criterion
does not ask for make no difference, and those of an optional criterion none to whether an entry can go on.
-/
theorem flags_only_help (hmade : ∀ c ∈ checks, c.IsMade) (ha : ∀ c ∈ checks, c.AnswersOn facts)
    (flags flags' : FlagTable) :
    ∃ v v', Verdict.of facts flags checks = .ok v ∧ Verdict.of facts flags' checks = .ok v' ∧
      ((∀ c ∈ checks, (flags.of c.id).AtMost (flags'.of c.id)) →
        v.passed.Sublist v'.passed ∧ v'.blockers.Sublist v.blockers ∧ v'.warnings.Sublist v.warnings ∧
          (v.canAdvance → v'.canAdvance)) ∧
      ((∀ c ∈ checks, c.Agrees (flags.of c.id) (flags'.of c.id)) → v' = v) ∧
      ((∀ c ∈ checks, c.isMandatory → c.Agrees (flags.of c.id) (flags'.of c.id)) → v'.canAdvance = v.canAdvance) := by
  have hparts := parts_told facts flags checks
  have hparts' := parts_told facts flags' checks
  refine ⟨_, _, of_eq_told hmade ha flags, of_eq_told hmade ha flags', ?_, ?_, ?_⟩
  . intro hraised
    have hmono (c : Check) (hc : c ∈ checks) (h : c.isFulfilled facts (flags.of c.id)) :
        c.isFulfilled facts (flags'.of c.id) :=
      Check.isFulfilled_mono (hraised c hc) facts h
    rw [hparts.passed, hparts'.passed, hparts.blockers, hparts'.blockers, hparts.warnings, hparts'.warnings,
      hparts.canAdvance, hparts'.canAdvance]
    -- What is not met under the raised flags was not met before, whether it is mandatory or not.
    have hunmet (b : Check → Bool) (c : Check) (hc : c ∈ checks)
        (h : !c.isFulfilled facts (flags'.of c.id) && b c) : !c.isFulfilled facts (flags.of c.id) && b c := by
      rw [Bool.and_eq_true, Bool.not_eq_true', ← Bool.not_eq_true] at *
      exact ⟨mt (hmono c hc) h.1, h.2⟩
    refine ⟨(filter_sublist_filter hmono).map _, (filter_sublist_filter (hunmet _)).map _,
      (filter_sublist_filter (hunmet _)).map _, ?_⟩
    exact fun hmet c hc hmandatory => hmono c hc (hmet c hc hmandatory)
  . intro hagrees
    unfold told
    congr 1
    apply List.map_congr_left
    intro c hc
    rw [Check.isFulfilled_congr (hagrees c hc)]
  . intro hagrees
    rw [Bool.eq_iff_iff, hparts.canAdvance, hparts'.canAdvance]
    refine forall₂_congr fun c hc => forall_congr' fun hmandatory => ?_
    rw [Check.isFulfilled_congr (hagrees c hc hmandatory)]

theorem flags_help_ofEachKind :
    ∃ v v', Verdict.of Rule.scored [(1, ⟨true, false⟩)] ofEachKind = .ok v ∧
      Verdict.of Rule.scored [(9, ⟨true, true⟩), (1, ⟨true, true⟩)] ofEachKind = .ok v ∧
      Verdict.of Rule.scored [(2, ⟨false, true⟩), (1, ⟨true, false⟩)] ofEachKind = .ok v' ∧
      v.passed.Sublist v'.passed ∧ v'.blockers.Sublist v.blockers ∧ v'.warnings.Sublist v.warnings := by
  have hagrees : ∀ c ∈ ofEachKind, (c.kind = .checklist → (FlagTable.of [(1, ⟨true, false⟩)] c.id).done =
        (FlagTable.of [(9, ⟨true, true⟩), (1, ⟨true, true⟩)] c.id).done) ∧
      (c.kind = .manual → (FlagTable.of [(1, ⟨true, false⟩)] c.id).approved =
        (FlagTable.of [(9, ⟨true, true⟩), (1, ⟨true, true⟩)] c.id).approved) := by
    decide +kernel
  have hraised : ∀ c ∈ ofEachKind, ((FlagTable.of [(1, ⟨true, false⟩)] c.id).done →
        (FlagTable.of [(2, ⟨false, true⟩), (1, ⟨true, false⟩)] c.id).done) ∧
      ((FlagTable.of [(1, ⟨true, false⟩)] c.id).approved →
        (FlagTable.of [(2, ⟨false, true⟩), (1, ⟨true, false⟩)] c.id).approved) := by
    decide +kernel
  obtain ⟨v, w, hv, hw, -, hsame, -⟩ := flags_only_help isMade_ofEachKind answersOn_ofEachKind
    [(1, ⟨true, false⟩)] [(9, ⟨true, true⟩), (1, ⟨true, true⟩)]
  obtain ⟨u, v', hu, hv', hhelp, -⟩ := flags_only_help isMade_ofEachKind answersOn_ofEachKind
    [(1, ⟨true, false⟩)] [(2, ⟨false, true⟩), (1, ⟨true, false⟩)]
  have hwv : w = v := hsame fun c hc => ⟨(hagrees c hc).1, (hagrees c hc).2⟩
  have huv : u = v := Except.ok.inj (hu.symm.trans hv)
  subst hwv huv
  obtain ⟨hpassed, hblockers, hwarnings, -⟩ := hhelp fun c hc => ⟨(hraised c hc).1, (hraised c hc).2⟩
  exact ⟨u, v', hv, hw, hv', hpassed, hblockers, hwarnings⟩

end Verdict

end StageGate
