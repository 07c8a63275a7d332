import StageGate.Proofs.Canonical
import StageGate.Proofs.Gate
import StageGate.Proofs.Rounding

/-!
This module contains when a rule can be judged. Numbers are compared as binary64 numbers, and an integer that
rounds beyond them cannot be; texts are compared as they are written, and an integer of too many digits is not
written. A rule is judged to the end unless one of the leaves that its judgement comes to meets with such a
value.
-/

namespace StageGate

/-! ## Integers beyond the numbers -/

namespace Binary64

/-- The least integer that rounds to no number: the greatest number, and half of its distance to the next. -/
def beyond : Nat :=
  Nat.pow 2 1024 - Nat.pow 2 970

theorem limit_eq : limit = 2 ^ (2044 + 54) := by
  decide +kernel

theorem beyond_mul_one : beyond * one = 2 ^ (2044 + 54) - 2 ^ 2044 := by
  decide +kernel

theorem rounded_le {n k : Nat} (h : n.log2 - 52 ≤ k) : rounded n ≤ n + 2 ^ k := by
  rw [rounded_eq]
  calc roundDiv n (2 ^ (n.log2 - 52)) * 2 ^ (n.log2 - 52)
    _ ≤ (n / 2 ^ (n.log2 - 52) + 1) * 2 ^ (n.log2 - 52) := Nat.mul_le_mul_right _ (roundDiv_le ..)
    _ = n / 2 ^ (n.log2 - 52) * 2 ^ (n.log2 - 52) + 2 ^ (n.log2 - 52) := by rw [Nat.add_mul, Nat.one_mul]
    _ ≤ n + 2 ^ (n.log2 - 52) := Nat.add_le_add_right (Nat.div_mul_le_self ..) _
    _ ≤ n + 2 ^ k := Nat.add_le_add_left (Nat.pow_le_pow_right (by omega) h) n

/-- In the last binade the greatest quotient is odd, so that the half above it is rounded away from it. -/
theorem roundDiv_lt_iff {n u : Nat} (hu : 0 < u) (hn : n < 2 ^ 54 * u) :
    roundDiv n (2 * u) * (2 * u) < 2 ^ 54 * u ↔ n < 2 ^ 54 * u - u := by
  have hdiv := Nat.div_add_mod n (2 * u)
  have hmod := Nat.mod_lt n (by omega : 0 < 2 * u)
  have hlt : n / (2 * u) < 2 ^ 53 := by
    rw [Nat.div_lt_iff_lt_mul (by omega)]
    omega
  have hmul (q : Nat) : q * (2 * u) < 2 ^ 54 * u ↔ q < 2 ^ 53 := by
    rw [show 2 ^ 54 * u = 2 ^ 53 * (2 * u) by omega]
    exact Nat.mul_lt_mul_right (by omega)
  rw [hmul]
  unfold roundDiv
  dsimp only
  generalize n / (2 * u) = q at *
  generalize n % (2 * u) = r at *
  by_cases hq : q = 2 ^ 53 - 1
  . subst hq
    split
    . omega
    . split <;> omega
  -- Below the greatest quotient both sides hold.
  . have hle : 2 * u * q ≤ 2 * u * (2 ^ 53 - 2) := Nat.mul_le_mul_left _ (by omega)
    have : n < 2 ^ 54 * u - u := by omega
    split
    . omega
    . split <;> omega

theorem rounded_lt_iff (n k : Nat) : rounded n < 2 ^ (k + 54) ↔ n < 2 ^ (k + 54) - 2 ^ k := by
  have hlast : 2 ^ (k + 54) = 2 ^ 54 * 2 ^ k := by rw [Nat.pow_add, Nat.mul_comm]
  have hbefore : 2 ^ (k + 53) = 2 ^ 53 * 2 ^ k := by rw [Nat.pow_add, Nat.mul_comm]
  have hpos := Nat.two_pow_pos k
  by_cases hsmall : n < 2 ^ (k + 53)
  . have hlog : n.log2 - 52 ≤ k := by
      rcases Nat.eq_zero_or_pos n with rfl | hn
      . simp
      . have := (Nat.log2_lt (by omega)).mpr hsmall
        omega
    have := rounded_le hlog
    omega
  . by_cases hlarge : n < 2 ^ (k + 54)
    . have hlog : n.log2 - 52 = k + 1 := by
        have := (Nat.log2_lt (by omega)).mpr hlarge
        have := (Nat.le_log2 (by omega)).mpr (Nat.le_of_not_lt hsmall)
        omega
      rw [rounded_eq, hlog, Nat.pow_succ, Nat.mul_comm _ 2, hlast]
      exact roundDiv_lt_iff hpos (by rwa [← hlast])
    . have := le_rounded (Nat.le_of_not_lt hlarge)
      omega

theorem nearest_one (units : Nat) : nearest units 1 = rounded units := by
  rw [rounded_eq, nearest, Nat.div_one, Nat.one_mul]
  rfl

theorem rounded_lt_limit (n : Nat) : rounded (n * one) < limit ↔ n < beyond := by
  rw [limit_eq, rounded_lt_iff, ← beyond_mul_one]
  exact Nat.mul_lt_mul_right one_pos

theorem isFinite_ofInt (n : Int) : (ofInt n).isFinite ↔ n.natAbs < beyond := by
  rw [← rounded_lt_limit]
  unfold ofInt ofRatio
  rw [nearest_one]
  dsimp only
  split
  . next h => simp [isFinite, h]
  . next h => simp [isFinite, h]

end Binary64

/-! ## What answers -/

def Answers {α : Type} (x : Except Fault α) : Prop :=
  ∃ a, x = .ok a

section

variable {α β : Type}

@[simp]
theorem answers_ok (a : α) : Answers (.ok a) :=
  ⟨a, rfl⟩

@[simp]
theorem answers_pure (a : α) : Answers (pure a) :=
  ⟨a, rfl⟩

@[simp]
theorem answers_error {e : Fault} : ¬Answers (.error e : Except Fault α) := by
  rintro ⟨a, h⟩
  cases h

theorem answers_bind {x : Except Fault α} {f : α → Except Fault β} :
    Answers (x >>= f) ↔ Answers x ∧ ∀ a, x = .ok a → Answers (f a) := by
  cases x <;> simp [bind, Except.bind]

@[simp]
theorem answers_map {x : Except Fault α} {f : α → β} : Answers (x.map f) ↔ Answers x := by
  cases x <;> simp [Except.map]

@[simp]
theorem answers_functor_map {x : Except Fault α} {f : α → β} : Answers (f <$> x) ↔ Answers x :=
  answers_map

@[simp]
theorem answers_ite {p : Prop} [Decidable p] {x y : Except Fault α} :
    Answers (if p then x else y) ↔ (p → Answers x) ∧ (¬p → Answers y) := by
  split <;> simp_all

end

/-! ## Values that cannot be read -/

namespace Value

/-- An integer that rounds to no number. -/
def IsImmense : Value → Prop
  | .int n => Binary64.beyond ≤ n.natAbs
  | _ => False

variable {v w : Value}

theorem two_pow_le_ten_pow {j k : Nat} (h : j ≤ k) : Nat.pow 2 j ≤ Nat.pow 10 k :=
  Nat.le_trans (Nat.pow_le_pow_left (by omega) j) (Nat.pow_le_pow_right (by omega) h)

theorem beyond_le_digitsLimit : Binary64.beyond ≤ digitsLimit := by
  unfold Binary64.beyond digitsLimit
  apply Nat.le_trans (Nat.sub_le ..)
  apply two_pow_le_ten_pow
  decide

theorem answers_orElse {x : Binary64} {b : Breakdown} :
    Answers (toNumber.orElse (finite? x) b) ↔ x.isFinite := by
  unfold finite? toNumber.orElse
  cases h : x.isFinite <;> simp

theorem answers_toNumber_int (n : Int) : Answers (toNumber (.int n)) ↔ ¬IsImmense (.int n) := by
  rw [toNumber, answers_orElse, Binary64.isFinite_ofInt]
  exact Nat.not_le.symm

theorem answers_toNumber (h : v.isJson) : Answers v.toNumber ↔ ¬v.IsImmense := by
  cases v with
  | int n => exact answers_toNumber_int n
  | decimal => simp [isJson] at h
  | _ => simp [toNumber, IsImmense]

theorem isWritable_of_isScalar (hs : Rule.isScalar v) (h : ¬v.IsImmense) : v.isWritable := by
  cases v with
  | int n =>
    simp only [IsImmense, Nat.not_le] at h
    simp only [isWritable, integersBelow, decide_eq_true_eq]
    exact Nat.lt_of_lt_of_le h beyond_le_digitsLimit
  | decimal | list | object => cases hs
  | _ => rfl

/-- What is read as a number has no more digits than can be written. -/
theorem isWritable_of_toNumber {x : Binary64} (h : v.toNumber = .ok (some x)) : v.isWritable := by
  cases v with
  | int n => exact isWritable_of_isScalar rfl ((answers_toNumber_int n).mp ⟨_, h⟩)
  | list | object => simp [toNumber] at h
  | _ => rfl

theorem answers_written : Answers v.written ↔ v.isWritable := by
  simp [written]

theorem toBool?_of_equalBools? {b : Bool} (h : equalBools? v w = some b) : v.toBool?.isSome ∧ w.toBool?.isSome := by
  unfold equalBools? at h
  split at h
  all_goals
    first
    | cases h
    | split at h
      . simp [*]
      . cases h

theorem readable_of_toBool? (h : v.toBool?.isSome) : ¬v.IsImmense ∧ v.isWritable := by
  cases v <;> simp_all [toBool?, IsImmense, isWritable, integersBelow]

/-- Two values that can be told equal or not, in one way or another. -/
def AreComparable (v w : Value) : Prop :=
  v.isNull ∨ w.isNull ∨ (¬v.IsImmense ∧ ¬w.IsImmense ∧ v.isWritable ∧ w.isWritable)

theorem answers_equalNumbersOrTexts (hv : v.isJson) (hw : w.isJson) :
    Answers (equalNumbersOrTexts v w) ↔ ¬v.IsImmense ∧ ¬w.IsImmense ∧ v.isWritable ∧ w.isWritable := by
  unfold equalNumbersOrTexts
  rw [answers_bind, answers_toNumber hv, and_congr_right_iff]
  intro hvn
  obtain ⟨x, hx⟩ := ((answers_toNumber hv).mpr hvn)
  simp only [hx, Except.ok.injEq, forall_eq', answers_bind, answers_toNumber hw, and_congr_right_iff]
  intro hwn
  obtain ⟨y, hy⟩ := ((answers_toNumber hw).mpr hwn)
  simp only [hy, Except.ok.injEq, forall_eq']
  split
  . simp [isWritable_of_toNumber hx, isWritable_of_toNumber hy]
  . simp only [answers_bind, answers_pure, answers_written, implies_true, and_true, and_congr_right_iff]
    intro hv
    simp [written, hv]

theorem answers_looseEquals (hv : v.isJson) (hw : w.isJson) :
    Answers (looseEquals v w) ↔ AreComparable v w := by
  unfold looseEquals AreComparable
  split
  . next h =>
    rw [Bool.or_eq_true] at h
    rcases h with h | h <;> simp [h]
  . next h =>
    rw [Bool.or_eq_true, not_or] at h
    rw [or_iff_right h.1, or_iff_right h.2]
    split
    . next b hb =>
      obtain ⟨hvb, hwb⟩ := toBool?_of_equalBools? hb
      simp [readable_of_toBool? hvb, readable_of_toBool? hwb]
    . exact answers_equalNumbersOrTexts hv hw

theorem answers_containsText : Answers (containsText v w) ↔ v.isWritable ∧ w.isWritable := by
  unfold containsText
  rw [answers_bind, answers_written, and_comm, and_congr_left_iff]
  intro hw
  simp only [written, hw, ↓reduceIte, Except.ok.injEq, forall_eq']
  rw [answers_bind, ← written, answers_written]
  simp

/-! ## Facts that hold no fields -/

/-- Facts that are no object and cannot be asked for a name. -/
def Defies (name : String) : Value → Prop
  | .object _ => False
  | .list items => .text name ∈ items
  | .text s => Text.occursIn name.toList s.toList
  | _ => True

theorem answers_resolve? {facts : Value} {name : String} :
    Answers (facts.resolve? name) ↔ ¬facts.Defies name := by
  unfold resolve?
  rw [answers_bind, and_iff_left]
  . unfold member? Defies
    split <;> simp
  . intro a _
    split
    . simp
    . split <;> simp

end Value

/-! ## Leaves -/

namespace Value

section

/- A property that the members of an object have when the object has it. -/
variable {P : Value → Prop} (hP : ∀ {fields : Fields} {key : String} {v : Value}, P (.object fields) →
  fields.get? key = some v → P v)

include hP

theorem of_walk {parts : List String} {v w : Value} (h : P v) (hw : walk parts v = some w) : P w := by
  induction parts generalizing v with
  | nil =>
    cases hw
    exact h
  | cons part parts ih =>
    cases v with
    | object fields =>
      simp only [walk, Option.bind_eq_some_iff] at hw
      obtain ⟨u, hu, hw⟩ := hw
      exact ih (hP h hu) hw
    | _ => simp [walk] at hw

theorem of_resolve? {facts : Value} {name : String} {w : Value} (h : P facts)
    (hw : facts.resolve? name = .ok (some w)) : P w := by
  unfold resolve? at hw
  rw [bind_eq_ok] at hw
  obtain ⟨found, hfound, hw⟩ := hw
  cases found with
  | some u =>
    cases hw
    cases facts with
    | object fields =>
      simp only [member?, Except.ok.injEq] at hfound
      exact hP h hfound
    | _ => grind [member?]
  | none =>
    simp only at hw
    split at hw
    . simp only [pure, Except.pure, Except.ok.injEq] at hw
      exact of_walk hP h hw
    . cases hw

end

theorem isJson_orElse {v fallback : Value} (h : v.isJson) (hf : fallback.isJson) : (v.orElse fallback).isJson := by
  unfold orElse
  split
  . exact h
  . exact hf

end Value

/-- Facts that are documents, if there are any. -/
structure Facts.AreJson (facts : Facts) : Prop where
  snapshot : facts.snapshot.isJson
  context : facts.context.isJson

theorem Facts.AreJson.source {facts : Facts} (h : facts.AreJson) (d : Domain) : (Leaf.source facts d).isJson := by
  cases d with
  | entity => exact Value.isJson_orElse h.snapshot rfl
  | activity | time | relationship => exact Value.isJson_orElse h.context rfl

/-- The values that an operator cannot judge. -/
def Operator.Stumbles (op : Operator) (actual value : Value) : Prop :=
  match op with
  | .present | .absent => False
  | .equal | .unequal => ¬actual.AreComparable value
  | .contains => ¬actual.isNull ∧ ¬value.isNull ∧ ¬(actual.isWritable ∧ value.isWritable)
  | _ => actual.IsImmense ∨ value.IsImmense

namespace Leaf

/-- Whether the judgement of a leaf meets with facts that hold no fields, or with a value that cannot be read. -/
def Stumbles (facts : Facts) (l : Leaf) : Prop :=
  (source facts l.domain).Defies l.field ∨
    ∃ actual, (source facts l.domain).resolve? l.field = .ok (some actual) ∧ l.operator.Stumbles actual l.value

theorem answers_holdsOrdered {actual value : Value} (ha : actual.isJson) (hv : value.isJson) (op : Operator) :
    Answers (holdsOrdered op actual value) ↔ ¬(actual.IsImmense ∨ value.IsImmense) := by
  unfold holdsOrdered
  rw [answers_bind, Value.answers_toNumber ha, not_or, and_congr_right_iff]
  intro han
  obtain ⟨x, hx⟩ := (Value.answers_toNumber ha).mpr han
  simp only [hx, Except.ok.injEq, forall_eq']
  rw [answers_bind, Value.answers_toNumber hv, and_iff_left]
  intro y _
  split <;> simp

theorem answers_holdsOn (l : Leaf) {actual : Value} (ha : actual.isJson) (hv : l.value.isJson) :
    Answers (l.holdsOn (some actual)) ↔ ¬l.operator.Stumbles actual l.value := by
  unfold holdsOn
  cases l.operator with
  | present | absent => simp [Operator.Stumbles]
  | equal =>
    simp only [holdsOf, Operator.Stumbles, not_not]
    exact Value.answers_looseEquals ha hv
  | unequal =>
    simp only [holdsOf, Operator.Stumbles, not_not, answers_map]
    exact Value.answers_looseEquals ha hv
  | contains =>
    simp only [holdsOf, Operator.Stumbles, answers_ite, answers_ok, Value.answers_containsText, Bool.or_eq_true]
    grind
  | greater | less | atLeast | atMost => exact answers_holdsOrdered ha hv _

theorem answers_holds {facts : Facts} (hf : facts.AreJson) {l : Leaf} (hl : l.value.isJson) :
    Answers (l.holds facts) ↔ ¬l.Stumbles facts := by
  unfold holds Stumbles
  rw [answers_bind, Value.answers_resolve?, not_or, and_congr_right_iff]
  intro hfields
  obtain ⟨found, hfound⟩ := Value.answers_resolve?.mpr hfields
  simp only [hfound, Except.ok.injEq, forall_eq']
  cases found with
  | none =>
    have habsent : Answers (l.holdsOn none) := by
      unfold holdsOn
      split <;> simp
    simp [habsent]
  | some actual =>
    have hactual : actual.isJson :=
      Value.of_resolve? (P := fun v => v.isJson) (fun h => Value.isJson_of_get? h) (hf.source l.domain) hfound
    simp only [Option.some.injEq, exists_eq_left']
    exact l.answers_holdsOn hactual hl

end Leaf

/-! ## Rules -/

/-- What a child holds for when it leaves a group to the children after it. -/
def Logic.undecided : Logic → Bool
  | .all => true
  | .any => false

namespace Rule

variable {facts : Facts}

/-- The children that the judgement of a group comes to. -/
inductive Reaches (facts : Facts) (logic : Logic) : List Rule → Rule → Prop
  | here {r : Rule} {rs : List Rule} : Reaches facts logic (r :: rs) r
  | later {r r' : Rule} {rs : List Rule} (hr : r.holds facts = .ok logic.undecided) (h : Reaches facts logic rs r') :
      Reaches facts logic (r :: rs) r'

/-- The leaves that the judgement of a rule comes to. -/
inductive Judges (facts : Facts) : Rule → Leaf → Prop
  | leaf {l : Leaf} : Judges facts (.leaf l) l
  | group {logic : Logic} {children : List Rule} {r : Rule} {l : Leaf} (hr : Reaches facts logic children r)
      (h : Judges facts r l) : Judges facts (.group logic children) l

theorem Reaches.mem {logic : Logic} {rs : List Rule} {r : Rule} (h : Reaches facts logic rs r) : r ∈ rs := by
  induction h with
  | here => simp
  | later _ _ ih => simp [ih]

theorem holds_group_cons {logic : Logic} {r : Rule} {rs : List Rule} :
    (group logic (r :: rs)).holds facts =
      match r.holds facts with
      | .ok b => if b = logic.undecided then (group logic rs).holds facts else .ok b
      | .error e => .error e := by
  cases logic with
  | all =>
    simp only [holds, allHold]
    rcases r.holds facts with _ | _ | _ <;> rfl
  | any =>
    simp only [holds, anyHolds]
    rcases r.holds facts with _ | _ | _ <;> rfl

theorem answers_group {logic : Logic} {rs : List Rule} : Answers ((group logic rs).holds facts) ↔
    ∀ r, Reaches facts logic rs r → Answers (r.holds facts) := by
  induction rs with
  | nil =>
    refine iff_of_true ?_ fun r h => by cases h
    cases logic <;> simp [holds, allHold, anyHolds]
  | cons r rs ih =>
    rw [holds_group_cons]
    cases hr : r.holds facts with
    | error e =>
      refine iff_of_false answers_error fun h => ?_
      have := h r .here
      simp [hr] at this
    | ok b =>
      dsimp only
      split
      . next hb =>
        rw [ih]
        constructor
        . rintro h r' (_ | ⟨-, h'⟩)
          . exact ⟨b, hr⟩
          . exact h r' h'
        . intro h r' h'
          exact h r' (.later (hb ▸ hr) h')
      . next hb =>
        refine iff_of_true (answers_ok b) ?_
        rintro r' (_ | ⟨hr', -⟩)
        . exact ⟨b, hr⟩
        . rw [hr, Except.ok.injEq] at hr'
          exact absurd hr' hb

theorem Fits.answers_holds {levels : Nat} {r : Rule} (h : r.Fits levels) (hf : facts.AreJson) :
    Answers (r.holds facts) ↔ ∀ l, r.Judges facts l → ¬l.Stumbles facts := by
  induction h with
  | leaf hl =>
    rw [holds, Leaf.answers_holds hf (Value.isJson_of_isScalar hl.scalar)]
    constructor
    . rintro h _ ⟨⟩
      exact h
    . intro h
      exact h _ .leaf
  | group _ _ ih =>
    rw [answers_group]
    constructor
    . rintro h l (_ | ⟨hr, hl⟩)
      exact (ih _ hr.mem).mp (h _ hr) l hl
    . intro h r hr
      exact (ih _ hr.mem).mpr fun l hl => h l (.group hr hl)

theorem answers_holds_of_read {path : String} {v : Value} {r : Rule} (h : read path v = .ok r)
    (hf : facts.AreJson) : Answers (r.holds facts) ↔ ∀ l, r.Judges facts l → ¬l.Stumbles facts :=
  (fits_of_readWithin h).answers_holds hf

end Rule

/-! ## Verdicts -/

/-- The leaves that the judgement of a criterion comes to. -/
def Check.Judges (facts : Facts) (c : Check) (l : Leaf) : Prop :=
  ∃ r, c.demand = .holds r ∧ r.Judges facts l

theorem CheckSource.exists_read_of_compile {source : CheckSource} {c : Check} {r : Rule}
    (h : source.compile = .ok c) (hr : c.demand = .holds r) : ∃ path, Rule.read path source.rule = .ok r := by
  unfold compile at h
  split at h
  . next kind _ =>
    rw [bind_eq_ok] at h
    obtain ⟨rule, hrule, h⟩ := h
    unfold Kind.readRule at hrule
    have hsome : rule = some r := by
      unfold Check.ofParts at h
      grind
    subst hsome
    split at hrule
    . cases hrule
    . split at hrule
      . cases hrule
      . cases hread : Rule.read (source.path ++ ".rule") source.rule with
        | error e => simp [hread, Except.map] at hrule
        | ok r' =>
          simp only [hread, Except.map, Except.ok.injEq, Option.some.injEq] at hrule
          exact ⟨_, hrule ▸ hread⟩
  . cases h

theorem Check.answers_isMet {facts : Facts} (hf : facts.AreJson) {source : CheckSource} {c : Check}
    (hc : source.compile = .ok c) (flags : Flags) :
    Answers (c.isMet facts flags) ↔ ∀ l, c.Judges facts l → ¬l.Stumbles facts := by
  unfold isMet Judges
  split
  . next h => simp [h]
  . next h => simp [h]
  . next r h =>
    obtain ⟨path, hr⟩ := CheckSource.exists_read_of_compile hc h
    rw [Rule.answers_holds_of_read hr hf]
    simp [h]

theorem Verdict.answers_of {facts : Facts} {flags : FlagTable} {checks : List Check} (hkey : ∀ c ∈ checks, c.id.isKey) :
    Answers (Verdict.of facts flags checks) ↔ ∀ c ∈ checks, Answers (c.isMet facts (flags.of c.id)) := by
  induction checks with
  | nil => simp [Verdict.of]
  | cons c checks ih =>
    rw [List.forall_mem_cons] at hkey
    rw [List.forall_mem_cons, ← ih hkey.2]
    rw [Verdict.of]
    simp only [hkey.1, Bool.not_true, Bool.false_eq_true, ↓reduceIte]
    rw [answers_bind, and_congr_right_iff]
    rintro ⟨met, hmet⟩
    simp [hmet]

theorem Verdict.answers_of_compileAll {facts : Facts} (hf : facts.AreJson) {cs : List Criterion} {checks : List Check}
    (hchecks : CheckSource.compileAll (cs.map Criterion.source) = .ok checks) (flags : FlagTable) :
    Answers (Verdict.of facts flags checks) ↔ ∀ c ∈ checks, ∀ l, c.Judges facts l → ¬l.Stumbles facts := by
  have hsource : ∀ check ∈ checks, ∃ c : Criterion, c.source.compile = .ok check := by
    intro check hcheck
    obtain ⟨_, hmem, hcompile⟩ := (mem_iff_of_mapM_eq_ok hchecks).mp hcheck
    obtain ⟨c, -, rfl⟩ := List.mem_map.mp hmem
    exact ⟨c, hcompile⟩
  have hkey : ∀ check ∈ checks, check.id.isKey := by
    intro check hcheck
    obtain ⟨c, hcompile⟩ := hsource check hcheck
    rw [(CheckSource.of_compile hcompile).1]
    rfl
  rw [answers_of hkey]
  refine forall₂_congr fun check hcheck => ?_
  obtain ⟨c, hcompile⟩ := hsource check hcheck
  exact check.answers_isMet hf hcompile _

/-! ## Where every integer rounds to a number -/

namespace Value

section

variable {limit limit' : Nat}

mutual

theorem integersBelow_mono (hle : limit ≤ limit') : ∀ {v : Value}, v.integersBelow limit → v.integersBelow limit'
  | .int n, h => by
    simp only [integersBelow, decide_eq_true_eq] at h ⊢
    omega
  | .list items, h => itemsBelow_mono hle h
  | .object fields, h => fieldsBelow_mono hle h
  | .null, _ | .bool _, _ | .float _, _ | .decimal _, _ | .text _, _ => rfl

theorem itemsBelow_mono (hle : limit ≤ limit') : ∀ {vs : List Value}, itemsBelow limit vs → itemsBelow limit' vs
  | [], _ => rfl
  | v :: vs, h => by
    simp only [itemsBelow, Bool.and_eq_true] at h ⊢
    exact ⟨integersBelow_mono hle h.1, itemsBelow_mono hle h.2⟩

theorem fieldsBelow_mono (hle : limit ≤ limit') :
    ∀ {fs : List (String × Value)}, fieldsBelow limit fs → fieldsBelow limit' fs
  | [], _ => rfl
  | (_, v) :: fs, h => by
    simp only [fieldsBelow, Bool.and_eq_true] at h ⊢
    exact ⟨integersBelow_mono hle h.1, fieldsBelow_mono hle h.2⟩

end

end

theorem readable_of_below {v : Value} (h : v.integersBelow Binary64.beyond) : ¬v.IsImmense ∧ v.isWritable := by
  refine ⟨?_, integersBelow_mono beyond_le_digitsLimit h⟩
  cases v with
  | int n => simpa [integersBelow, IsImmense] using h
  | _ => simp [IsImmense]

end Value

theorem Operator.not_stumbles (op : Operator) {actual value : Value} (ha : actual.integersBelow Binary64.beyond)
    (hv : value.integersBelow Binary64.beyond) : ¬op.Stumbles actual value := by
  obtain ⟨han, haw⟩ := Value.readable_of_below ha
  obtain ⟨hvn, hvw⟩ := Value.readable_of_below hv
  cases op <;> simp [Stumbles, Value.AreComparable, han, haw, hvn, hvw]

/-- Facts with fields to look at, and without an integer that rounds to no number. -/
def Facts.AreModest (facts : Facts) : Prop :=
  ∀ d, ∃ fields, Leaf.source facts d = .object fields ∧ Value.fieldsBelow Binary64.beyond fields

theorem Leaf.not_stumbles {facts : Facts} (hf : facts.AreModest) {l : Leaf}
    (hl : l.value.integersBelow Binary64.beyond) : ¬l.Stumbles facts := by
  obtain ⟨fields, hsource, hbelow⟩ := hf l.domain
  unfold Stumbles
  rw [hsource]
  rintro (hdefies | ⟨actual, hactual, hstumbles⟩)
  . exact hdefies
  . have hfacts : (Value.object fields).integersBelow Binary64.beyond := hbelow
    have hmodest : actual.integersBelow Binary64.beyond :=
      Value.of_resolve? (P := fun v => v.integersBelow Binary64.beyond) (fun h => Value.below_of_get? h) hfacts hactual
    exact l.operator.not_stumbles hmodest hl hstumbles

/-! ## The contract -/

namespace Rule

theorem judgement_answers_iff {facts : Facts} (hf : facts.AreJson) :
    (∀ path v r, read path v = .ok r →
      ((∃ b, r.holds facts = .ok b) ↔ ∀ l, r.Judges facts l → ¬l.Stumbles facts)) ∧
    (∀ (cs : List Criterion) checks flags, CheckSource.compileAll (cs.map Criterion.source) = .ok checks →
      ((∃ verdict, Verdict.of facts flags checks = .ok verdict) ↔
        ∀ c ∈ checks, ∀ l, c.Judges facts l → ¬l.Stumbles facts)) ∧
    (facts.AreModest → ∀ l : Leaf, l.value.integersBelow Binary64.beyond → ¬l.Stumbles facts) :=
  ⟨fun _ _ _ h => answers_holds_of_read h hf, fun _ _ flags h => Verdict.answers_of_compileAll hf h flags,
    fun h _ hl => Leaf.not_stumbles h hl⟩

def leaf? : Rule → Option Leaf
  | .leaf l => some l
  | .group .. => none

theorem read_eq_leaf {path : String} {v : Value} {l : Leaf} (h : (read path v).toOption.bind leaf? = some l) :
    read path v = .ok (.leaf l) := by
  cases hread : read path v with
  | error e => simp [hread, Except.toOption] at h
  | ok r =>
    cases r with
    | leaf m => simpa [hread, Except.toOption, leaf?] using h
    | group => simp [hread, Except.toOption, leaf?] at h

def scoreLeaf : Leaf := ⟨.entity, "lead_score", .atLeast, .int 75⟩

def scored : Facts := ⟨.object [("lead_score", .int 80)], .null⟩

theorem judgement_answers_scored : ∃ b, (leaf scoreLeaf).holds scored = .ok b := by
  have hread : read "rule" scoreLeaf.toValue = .ok (leaf scoreLeaf) := read_eq_leaf (by decide +kernel)
  have hscored : scored.AreModest := by
    rintro (_ | _ | _ | _) <;> exact ⟨_, rfl, by decide +kernel⟩
  have hjson : scored.AreJson := ⟨by decide, by decide⟩
  obtain ⟨hholds, -, hmodest⟩ := judgement_answers_iff hjson
  refine (hholds _ _ _ hread).mpr ?_
  rintro l ⟨⟩
  exact hmodest hscored _ (by decide +kernel)

def unequalLeaf : Leaf := ⟨.activity, "x", .unequal, .int 1⟩

/-- A count that no number is near. -/
def uncountable : Facts := ⟨.null, .object [("x", .int (Nat.pow (Nat.pow 10 40) 10))]⟩

theorem judgement_of_uncountable :
    ¬∀ path v r facts, v.isJson → Facts.AreJson facts → read path v = .ok r → ∃ b, r.holds facts = .ok b := by
  intro h
  have hread : read "rule" unequalLeaf.toValue = .ok (leaf unequalLeaf) := read_eq_leaf (by decide +kernel)
  obtain ⟨b, hb⟩ := h _ _ _ uncountable (by decide) ⟨by decide, by decide⟩ hread
  have hfails : ((leaf unequalLeaf).holds uncountable).toOption = none := by decide +kernel
  rw [hb] at hfails
  cases hfails

end Rule

end StageGate
