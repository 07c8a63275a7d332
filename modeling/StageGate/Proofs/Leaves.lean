import Mathlib.Logic.Relation
import StageGate.Proofs.Verdicts

/-!
This module contains rules as functions of their leaves. Where every leaf answers, a rule is true or false by its leaves
alone, whatever order they are judged in. Hence it stays true when more of its leaves become true, it reads nothing but
the fields of its leaves, and it can be rearranged by the laws of all and any.
-/

namespace StageGate

namespace Rule

/-! ## The leaves of a rule -/

mutual

def leaves : Rule → List Leaf
  | .leaf l => [l]
  | .group _ children => leavesOf children

def leavesOf : List Rule → List Leaf
  | [] => []
  | r :: rs => leaves r ++ leavesOf rs

end

variable {facts facts' : Facts} {truth truth' : Leaf → Bool} {logic : Logic} {r r' : Rule} {rs : List Rule}

theorem mem_leavesOf {l : Leaf} : l ∈ leavesOf rs ↔ ∃ r ∈ rs, l ∈ r.leaves := by
  induction rs with
  | nil => simp [leavesOf]
  | cons r rs ih => simp [leavesOf, ih]

/-- What is true of the leaves of a group is true of the leaves of its children. -/
theorem forall_leaves_group {P : Leaf → Prop} :
    (∀ l ∈ (group logic rs).leaves, P l) ↔ ∀ r ∈ rs, ∀ l ∈ r.leaves, P l := by
  rw [leaves]
  simp only [mem_leavesOf]
  constructor
  . exact fun h r hr l hl => h l ⟨r, hr, hl⟩
  . rintro h l ⟨r, hr, hl⟩
    exact h r hr l hl

@[elab_as_elim]
theorem induction {motive : Rule → Prop} (leaf : ∀ l, motive (.leaf l))
    (group : ∀ logic children, (∀ r ∈ children, motive r) → motive (.group logic children)) (r : Rule) : motive r :=
  @Rule.rec motive (fun children => ∀ r ∈ children, motive r) leaf group (List.forall_mem_nil _)
    (fun _ _ hr hrs => List.forall_mem_cons.mpr ⟨hr, hrs⟩) r

/-- Rules that cannot tell two collections of facts apart where none of their leaves can, faults included. -/
theorem holds_congr (h : ∀ l ∈ r.leaves, l.holds facts = l.holds facts') : r.holds facts = r.holds facts' := by
  induction r using Rule.induction with
  | leaf l =>
    rw [holds, holds]
    exact h l (List.mem_singleton_self l)
  | group logic children ih =>
    rw [forall_leaves_group] at h
    induction children with
    | nil => cases logic <;> rfl
    | cons r rs ihs =>
      rw [List.forall_mem_cons] at h ih
      rw [holds_group_cons, holds_group_cons, ih.1 h.1, ihs ih.2 h.2]

end Rule

/-! ## What the leaves make of a rule -/

def Logic.join : Logic → List Bool → Bool
  | .all, answers => answers.all id
  | .any, answers => answers.any id

theorem Logic.eq_of_undecided_iff (logic : Logic) {a b : Bool} (h : a = logic.undecided ↔ b = logic.undecided) :
    a = b := by
  cases logic <;> cases a <;> cases b <;> simp_all [undecided]

namespace Rule

mutual

/-- Whether a rule is true when its leaves are as they are told to be. -/
def eval (truth : Leaf → Bool) : Rule → Bool
  | .leaf l => truth l
  | .group logic children => logic.join (evalEach truth children)

def evalEach (truth : Leaf → Bool) : List Rule → List Bool
  | [] => []
  | r :: rs => eval truth r :: evalEach truth rs

end

variable {facts facts' : Facts} {truth truth' : Leaf → Bool} {logic : Logic} {r r' : Rule} {rs : List Rule}

theorem evalEach_eq_map (truth : Leaf → Bool) (rs : List Rule) : evalEach truth rs = rs.map (eval truth) := by
  induction rs with
  | nil => rfl
  | cons r rs ih => rw [evalEach, ih, List.map_cons]

theorem eval_group_all : (group .all rs).eval truth ↔ ∀ r ∈ rs, r.eval truth := by
  simp [eval, Logic.join, evalEach_eq_map]

theorem eval_group_any : (group .any rs).eval truth ↔ ∃ r ∈ rs, r.eval truth := by
  simp [eval, Logic.join, evalEach_eq_map]

/-- A group is undecided as long as all of its children are, whatever their order is. -/
theorem eval_group_eq_undecided : (group logic rs).eval truth = logic.undecided ↔
    ∀ r ∈ rs, r.eval truth = logic.undecided := by
  cases logic with
  | all => exact eval_group_all
  | any =>
    rw [Logic.undecided, ← Bool.not_eq_true, eval_group_any]
    simp

theorem eval_group_cons : (group logic (r :: rs)).eval truth =
    if r.eval truth = logic.undecided then (group logic rs).eval truth else r.eval truth := by
  cases logic <;> cases h : r.eval truth <;> simp [eval, evalEach, Logic.join, Logic.undecided, h]

theorem holds_eq_eval (h : ∀ l ∈ r.leaves, l.holds facts = .ok (truth l)) : r.holds facts = .ok (r.eval truth) := by
  induction r using Rule.induction with
  | leaf l =>
    rw [holds, eval]
    exact h l (List.mem_singleton_self l)
  | group logic children ih =>
    rw [forall_leaves_group] at h
    induction children with
    | nil => cases logic <;> rfl
    | cons r rs ihs =>
      rw [List.forall_mem_cons] at h ih
      rw [holds_group_cons, ih.1 h.1, eval_group_cons]
      dsimp only
      split
      . exact ihs ih.2 h.2
      . rfl

theorem eval_mono (h : ∀ l ∈ r.leaves, truth l → truth' l) (hr : r.eval truth) : r.eval truth' := by
  induction r using Rule.induction with
  | leaf l =>
    rw [eval] at hr ⊢
    exact h l (List.mem_singleton_self l) hr
  | group logic children ih =>
    rw [forall_leaves_group] at h
    cases logic with
    | all =>
      rw [eval_group_all] at hr ⊢
      exact fun r hmem => ih r hmem (h r hmem) (hr r hmem)
    | any =>
      rw [eval_group_any] at hr ⊢
      obtain ⟨r, hmem, hr⟩ := hr
      exact ⟨r, hmem, ih r hmem (h r hmem) hr⟩

/-! ## Rules on facts -/

def LeavesAnswer (facts : Facts) (r : Rule) : Prop :=
  ∀ l ∈ r.leaves, Answers (l.holds facts)

def trueLeaf (facts : Facts) (l : Leaf) : Bool :=
  (leaf l).isTrueOn facts

theorem trueLeaf_iff {l : Leaf} : trueLeaf facts l ↔ l.holds facts = .ok true := by
  unfold trueLeaf isTrueOn
  rw [holds]
  cases l.holds facts <;> simp [Except.toOption]

theorem LeavesAnswer.holds_eq (h : r.LeavesAnswer facts) : r.holds facts = .ok (r.eval (trueLeaf facts)) := by
  apply holds_eq_eval
  intro l hl
  have hleaf := h l hl
  rw [← holds] at hleaf ⊢
  exact holds_eq_isTrueOn hleaf

theorem holds_of_source (h : ∀ l ∈ r.leaves, Leaf.source facts l.domain = Leaf.source facts' l.domain) :
    r.holds facts = r.holds facts' := by
  apply holds_congr
  intro l hl
  rw [Leaf.holds, Leaf.holds, h l hl]

/--
A rule with leaves that all answer is a monotone function of them. It reads the fields of its leaves and nothing else,
those of the lead in the snapshot and all others in the context.
-/
theorem monotone_in_leaves (h : r.LeavesAnswer facts) (h' : r.LeavesAnswer facts') :
    (∃ b b', r.holds facts = .ok b ∧ r.holds facts' = .ok b' ∧
        ((∀ l ∈ r.leaves, l.holds facts = .ok true → l.holds facts' = .ok true) → b → b')) ∧
      (∀ other : Facts, (∀ l ∈ r.leaves, (Leaf.source facts l.domain).resolve? l.field =
        (Leaf.source other l.domain).resolve? l.field) → r.holds facts = r.holds other) ∧
      (∀ context, (∀ l ∈ r.leaves, l.domain = .entity) → r.holds { facts with context } = r.holds facts) ∧
      ∀ snapshot, (∀ l ∈ r.leaves, l.domain ≠ .entity) → r.holds { facts with snapshot } = r.holds facts := by
  refine ⟨⟨_, _, h.holds_eq, h'.holds_eq, ?_⟩, ?_, ?_, ?_⟩
  . intro hmore
    apply eval_mono
    intro l hl
    rw [trueLeaf_iff, trueLeaf_iff]
    exact hmore l hl
  . intro other hfields
    apply holds_congr
    intro l hl
    rw [Leaf.holds, Leaf.holds, hfields l hl]
  . intro context hentity
    apply holds_of_source
    intro l hl
    rw [hentity l hl]
    rfl
  . intro snapshot hmetric
    apply holds_of_source
    intro l hl
    have hne := hmetric l hl
    cases hdomain : l.domain with
    | entity => exact absurd hdomain hne
    | activity | time | relationship => rfl

theorem leavesAnswer_of_all (h : r.leaves.all fun l => (l.holds facts).isOk) : r.LeavesAnswer facts := by
  intro l hl
  exact exists_of_isOk (List.all_eq_true.mp h l hl)

/-- A score that is high enough, and calls or a deal. -/
def promising : Rule :=
  .group .all [.leaf scoreLeaf, .group .any [.leaf ⟨.activity, "calls", .atLeast, .int 3⟩,
    .leaf ⟨.relationship, "deal.open", .equal, .bool true⟩]]

def called : Facts :=
  ⟨.object [("lead_score", .int 80)], .object [("calls", .int 4)]⟩

def calledAgain : Facts :=
  ⟨.object [("lead_score", .text "95"), ("name", .text "Ada")],
    .object [("calls", .int 5), ("deal", .object [("open", .bool true)])]⟩

theorem monotone_in_leaves_promising :
    promising.holds calledAgain = .ok true ∧
      ∀ context, (leaf scoreLeaf).holds { called with context } = (leaf scoreLeaf).holds called := by
  have hanswer : promising.LeavesAnswer called := leavesAnswer_of_all (by decide +kernel)
  have hanswer' : promising.LeavesAnswer calledAgain := leavesAnswer_of_all (by decide +kernel)
  obtain ⟨⟨b, b', hb, hb', hmono⟩, -⟩ := monotone_in_leaves hanswer hanswer'
  have htrue : promising.holds called = .ok true := by decide +kernel
  obtain rfl : b = true := Except.ok.inj (hb.symm.trans htrue)
  have hmore : ∀ l ∈ promising.leaves, l.holds called = .ok true → l.holds calledAgain = .ok true := by decide +kernel
  refine ⟨by rw [hb', hmono hmore rfl], ?_⟩
  have hleaf : (leaf scoreLeaf).LeavesAnswer called := leavesAnswer_of_all (by decide +kernel)
  obtain ⟨-, -, hcontext, -⟩ := monotone_in_leaves hleaf hleaf
  intro context
  exact hcontext context (by decide)

/-! ## Rearranged rules -/

end Rule

def Logic.dual : Logic → Logic
  | .all => .any
  | .any => .all

theorem Logic.undecided_dual (logic : Logic) : logic.dual.undecided = !logic.undecided := by
  cases logic <;> rfl

namespace Rule

variable {facts : Facts} {r r' : Rule}

/-- One change of the form of a rule, at any depth. -/
inductive Rearranges : Rule → Rule → Prop
  | reorder {logic : Logic} {rs rs' : List Rule} (h : rs.Perm rs') : Rearranges (group logic rs) (group logic rs')
  | double {logic : Logic} {before after : List Rule} {r : Rule} :
      Rearranges (group logic (before ++ r :: after)) (group logic (before ++ r :: r :: after))
  | merge {logic : Logic} {before rs after : List Rule} :
      Rearranges (group logic (before ++ group logic rs :: after)) (group logic (before ++ rs ++ after))
  | unwrap {logic : Logic} {r : Rule} : Rearranges (group logic [r]) r
  | absorb {logic : Logic} {r : Rule} {rs : List Rule} :
      Rearranges (group logic [r, group logic.dual (r :: rs)]) r
  | child {logic : Logic} {before after : List Rule} {r r' : Rule} (h : Rearranges r r') :
      Rearranges (group logic (before ++ r :: after)) (group logic (before ++ r' :: after))

/-- Changes of the form of a rule, any number of them and each in either direction. -/
abbrev IsRearranged : Rule → Rule → Prop :=
  Relation.EqvGen Rearranges

theorem Rearranges.eval_eq (h : Rearranges r r') (truth : Leaf → Bool) : r.eval truth = r'.eval truth := by
  induction h with
  | @reorder logic rs rs' h =>
    apply logic.eq_of_undecided_iff
    simp only [eval_group_eq_undecided, h.mem_iff]
  | @double logic before after r =>
    apply logic.eq_of_undecided_iff
    simp only [eval_group_eq_undecided, List.forall_mem_append, List.forall_mem_cons]
    tauto
  | @merge logic before rs after =>
    apply logic.eq_of_undecided_iff
    simp only [eval_group_eq_undecided, List.forall_mem_append, List.forall_mem_cons, and_assoc]
  | @unwrap logic r =>
    apply logic.eq_of_undecided_iff
    rw [eval_group_eq_undecided, List.forall_mem_singleton]
  | @absorb logic r rs =>
    apply logic.eq_of_undecided_iff
    rw [eval_group_eq_undecided, List.forall_mem_cons, List.forall_mem_singleton]
    apply and_iff_left_of_imp
    intro hr
    -- A child that leaves a group of one kind undecided decides a group of the other kind.
    have hne : (group logic.dual (r :: rs)).eval truth ≠ logic.dual.undecided := by
      rw [Ne, eval_group_eq_undecided, List.forall_mem_cons, hr, logic.undecided_dual]
      simp
    rw [logic.undecided_dual] at hne
    simpa using hne
  | @child logic before after r r' _ ih =>
    apply logic.eq_of_undecided_iff
    simp only [eval_group_eq_undecided, List.forall_mem_append, List.forall_mem_cons, ih]

theorem IsRearranged.eval_eq (h : IsRearranged r r') (truth : Leaf → Bool) : r.eval truth = r'.eval truth := by
  induction h with
  | rel r r' h => exact h.eval_eq truth
  | refl r => rfl
  | symm r r' _ ih => exact ih.symm
  | trans r r' r'' _ _ ih ih' => exact ih.trans ih'

/-- A rule and what it is rearranged to are true of the same facts, wherever the leaves of both answer. -/
theorem rearranged_holds_alike (h : IsRearranged r r') (hr : r.LeavesAnswer facts) (hr' : r'.LeavesAnswer facts) :
    ∃ b, r.holds facts = .ok b ∧ r'.holds facts = .ok b := by
  refine ⟨_, hr.holds_eq, ?_⟩
  rw [hr'.holds_eq, h.eval_eq]

/-- The score, said once more than is needed, or calls. -/
def longWinded : Rule :=
  .group .any
    [.group .all [.leaf scoreLeaf, .group .any [.leaf scoreLeaf, .leaf ⟨.time, "days_in_stage", .less, .int 9⟩]],
      .leaf ⟨.activity, "calls", .atLeast, .int 3⟩]

def reworded : Rule :=
  .group .any [.leaf ⟨.activity, "calls", .atLeast, .int 3⟩, .group .any [.leaf scoreLeaf, .leaf scoreLeaf]]

theorem isRearranged_reworded : IsRearranged longWinded reworded := by
  let score : Rule := .leaf scoreLeaf
  let calls : Rule := .leaf ⟨.activity, "calls", .atLeast, .int 3⟩
  have habsorb : Rearranges longWinded (group .any [score, calls]) := @Rearranges.child .any [] [calls] _ _ .absorb
  have hreorder : Rearranges (group .any [score, calls]) (group .any [calls, score]) := .reorder (List.Perm.swap ..)
  have hdouble : Rearranges (group .any [calls, score]) (group .any [calls, score, score]) :=
    @Rearranges.double .any [calls] [] score
  have hmerge : Rearranges reworded (group .any [calls, score, score]) :=
    @Rearranges.merge .any [calls] [score, score] []
  exact .trans _ _ _ (.rel _ _ habsorb) (.trans _ _ _ (.rel _ _ hreorder)
    (.trans _ _ _ (.rel _ _ hdouble) (.symm _ _ (.rel _ _ hmerge))))

theorem rearranged_holds_alike_reworded :
    IsRearranged longWinded reworded ∧ longWinded.holds called = .ok true ∧ reworded.holds called = .ok true := by
  have hanswer : longWinded.LeavesAnswer called := leavesAnswer_of_all (by decide +kernel)
  have hanswer' : reworded.LeavesAnswer called := leavesAnswer_of_all (by decide +kernel)
  obtain ⟨b, hb, hb'⟩ := rearranged_holds_alike isRearranged_reworded hanswer hanswer'
  have htrue : reworded.holds called = .ok true := by decide +kernel
  obtain rfl : b = true := Except.ok.inj (hb'.symm.trans htrue)
  exact ⟨isRearranged_reworded, hb, hb'⟩

end Rule

end StageGate
