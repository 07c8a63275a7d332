import StageGate.Proofs.Totality

/-!
This module contains how integers are compared in rules. Both are rounded to binary64 numbers first, so a
comparison of two integers is one of what they round to. Rounding keeps their order, but it may bring two of
them together, and none of the comparisons that tell them apart is exact then.
-/

namespace StageGate

/-! ## What integers round to -/

namespace Binary64

theorem rounded_of_le {n : Nat} (h : n ≤ 2 ^ 53) : rounded n = n := by
  have := rounded_mul_pow h 0
  simpa using this

theorem log2_mul_two_pow {n : Nat} (h : n ≠ 0) (s : Nat) : (n * 2 ^ s).log2 = n.log2 + s := by
  rw [Nat.log2_eq_iff (Nat.mul_ne_zero h (Nat.two_pow_pos s).ne'), Nat.pow_add, Nat.add_right_comm, Nat.pow_add]
  constructor
  . exact Nat.mul_le_mul_right _ (Nat.log2_self_le h)
  . exact Nat.mul_lt_mul_of_pos_right Nat.lt_log2_self (Nat.two_pow_pos s)

theorem rounded_mul_two_pow (n s : Nat) : rounded (n * 2 ^ s) = rounded n * 2 ^ s := by
  by_cases hsmall : n ≤ 2 ^ 53
  . rw [rounded_mul_pow hsmall, rounded_of_le hsmall]
  . have hn : n ≠ 0 := by omega
    have hlog : 53 ≤ n.log2 := (Nat.le_log2 hn).mpr (by omega)
    have hspare : (n * 2 ^ s).log2 - 52 = s + (n.log2 - 52) := by
      rw [log2_mul_two_pow hn]
      omega
    rw [rounded_eq, rounded_eq, hspare, Nat.pow_add, Nat.mul_comm n, roundDiv_mul_mul (Nat.two_pow_pos s)]
    rw [Nat.mul_comm (2 ^ s), Nat.mul_assoc]

/-- What an integer rounds to. -/
def roundedInt (n : Int) : Int :=
  if n < 0 then -(rounded n.natAbs : Int) else rounded n.natAbs

theorem natAbs_roundedInt (n : Int) : (roundedInt n).natAbs = rounded n.natAbs := by
  unfold roundedInt
  split <;> omega

theorem roundedInt_mono {m n : Int} (h : m ≤ n) : roundedInt m ≤ roundedInt n := by
  unfold roundedInt
  split
  . split
    . have := rounded_mono (show n.natAbs ≤ m.natAbs by omega)
      omega
    . omega
  . split
    . omega
    . have := rounded_mono (show m.natAbs ≤ n.natAbs by omega)
      omega

theorem roundedInt_of_le {n : Int} (h : n.natAbs ≤ 2 ^ 53) : roundedInt n = n := by
  unfold roundedInt
  rw [rounded_of_le h]
  split <;> omega

/-- A number that few bits make up is what no other integer rounds to. -/
theorem roundedInt_ne {m n : Int} (hm : m.natAbs < 2 ^ 53) (hne : m ≠ n) : roundedInt m ≠ roundedInt n := by
  rw [roundedInt_of_le (Nat.le_of_lt hm)]
  intro heq
  by_cases hn : n.natAbs ≤ 2 ^ 53
  . rw [roundedInt_of_le hn] at heq
    exact hne heq
  . have hle : 2 ^ 53 ≤ rounded n.natAbs := le_rounded (by omega)
    rw [← natAbs_roundedInt, ← heq] at hle
    omega

theorem ofInt_eq {n : Int} (h : n.natAbs < beyond) : ofInt n = .finite (n < 0) (rounded n.natAbs * one) := by
  have hrounded : rounded (n.natAbs * one) = rounded n.natAbs * one := by
    rw [one_eq, rounded_mul_two_pow]
  unfold ofInt ofRatio
  rw [nearest_one]
  dsimp only
  rw [if_pos ((rounded_lt_limit _).mpr h), hrounded]

theorem units_ofInt {n : Int} (h : n.natAbs < beyond) : (ofInt n).units = roundedInt n * one := by
  rw [ofInt_eq h]
  unfold units roundedInt
  by_cases hn : n < 0
  . simp only [hn, decide_true, ↓reduceIte, Int.natCast_mul, Int.neg_mul]
  . simp only [hn, decide_false, Bool.false_eq_true, ↓reduceIte, Int.natCast_mul]

theorem lt_of_isFinite {x y : Binary64} (hx : x.isFinite) (hy : y.isFinite) :
    x.lt y = decide (x.units < y.units) := by
  cases x with
  | infinite | nan => cases hx
  | finite =>
    cases y with
    | infinite | nan => cases hy
    | finite => rfl

theorem eq_of_isFinite {x y : Binary64} (hx : x.isFinite) (hy : y.isFinite) : x.eq y = (x.units == y.units) := by
  cases x with
  | infinite | nan => cases hx
  | finite =>
    cases y with
    | infinite | nan => cases hy
    | finite => rfl

theorem lt_ofInt {m n : Int} (hm : m.natAbs < beyond) (hn : n.natAbs < beyond) :
    (ofInt m).lt (ofInt n) = decide (roundedInt m < roundedInt n) := by
  have hone : (0 : Int) < one := Int.natCast_pos.mpr one_pos
  rw [lt_of_isFinite ((isFinite_ofInt m).mpr hm) ((isFinite_ofInt n).mpr hn), units_ofInt hm, units_ofInt hn,
    decide_eq_decide]
  exact Int.mul_lt_mul_right hone

theorem eq_ofInt {m n : Int} (hm : m.natAbs < beyond) (hn : n.natAbs < beyond) :
    (ofInt m).eq (ofInt n) = (roundedInt m == roundedInt n) := by
  have hone : (one : Int) ≠ 0 := by
    have := one_pos
    omega
  rw [eq_of_isFinite ((isFinite_ofInt m).mpr hm) ((isFinite_ofInt n).mpr hn), units_ofInt hm, units_ofInt hn,
    Bool.eq_iff_iff, beq_iff_eq, beq_iff_eq]
  exact Int.mul_eq_mul_right_iff hone

theorem le_ofInt {m n : Int} (hm : m.natAbs < beyond) (hn : n.natAbs < beyond) :
    (ofInt m).le (ofInt n) = decide (roundedInt m ≤ roundedInt n) := by
  rw [le, lt_ofInt hm hn, eq_ofInt hm hn, Bool.eq_iff_iff]
  simp only [Bool.or_eq_true, decide_eq_true_eq, beq_iff_eq]
  omega

end Binary64

/-! ## Leaves that compare integers -/

/-- What an operator that compares asks of two integers. -/
def Operator.relation? : Operator → Option (Int → Int → Bool)
  | .equal => some fun a b => a == b
  | .unequal => some fun a b => a != b
  | .less => some fun a b => a < b
  | .greater => some fun a b => b < a
  | .atMost => some fun a b => a ≤ b
  | .atLeast => some fun a b => b ≤ a
  | .contains | .present | .absent => none

namespace Leaf

open Binary64 (roundedInt beyond)

variable {a b : Int}

theorem toNumber_int {n : Int} (h : n.natAbs < beyond) : (Value.int n).toNumber = .ok (some (.ofInt n)) := by
  rw [Value.toNumber, Value.finite?, if_pos ((Binary64.isFinite_ofInt n).mpr h), Value.toNumber.orElse]

theorem looseEquals_int (ha : a.natAbs < beyond) (hb : b.natAbs < beyond) :
    (Value.int a).looseEquals (.int b) = .ok (roundedInt a == roundedInt b) := by
  simp only [Value.looseEquals, Value.isNull, Value.equalBools?, Bool.or_self, Bool.false_eq_true, ↓reduceIte]
  rw [Value.equalNumbersOrTexts, toNumber_int ha, toNumber_int hb, ← Binary64.eq_ofInt ha hb]
  rfl

theorem holdsOrdered_of_toNumber {v w : Value} {x y : Binary64} (hv : v.toNumber = .ok (some x))
    (hw : w.toNumber = .ok (some y)) (op : Operator) : holdsOrdered op v w = .ok (compare op x y) := by
  rw [holdsOrdered, hv, hw]
  rfl

theorem compare_ofInt {op : Operator} {rel : Int → Int → Bool} (hop : op.relation? = some rel)
    (hne : op ≠ .equal ∧ op ≠ .unequal) (ha : a.natAbs < beyond) (hb : b.natAbs < beyond) :
    compare op (.ofInt a) (.ofInt b) = rel (roundedInt a) (roundedInt b) := by
  cases op with
  | less =>
    cases hop
    rw [compare, Binary64.lt_ofInt ha hb]
  | greater =>
    cases hop
    rw [compare, Binary64.lt_ofInt hb ha]
  | atMost =>
    cases hop
    rw [compare, Binary64.le_ofInt ha hb]
  | atLeast =>
    cases hop
    rw [compare, Binary64.le_ofInt hb ha]
  | equal => exact absurd rfl hne.1
  | unequal => exact absurd rfl hne.2
  | contains | present | absent => cases hop

theorem holdsOf_int {op : Operator} {rel : Int → Int → Bool} (hop : op.relation? = some rel)
    (ha : a.natAbs < beyond) (hb : b.natAbs < beyond) :
    holdsOf op (.int a) (.int b) = .ok (rel (roundedInt a) (roundedInt b)) := by
  cases op with
  | equal =>
    cases hop
    exact looseEquals_int ha hb
  | unequal =>
    cases hop
    rw [holdsOf, looseEquals_int ha hb]
    rfl
  | contains | present | absent => cases hop
  | less | greater | atMost | atLeast =>
    rw [← compare_ofInt hop (by simp) ha hb]
    exact holdsOrdered_of_toNumber (toNumber_int ha) (toNumber_int hb) _

theorem holds_of_resolve? {facts : Facts} {domain : Domain} {field : String} {found : Option Value}
    (hfield : (source facts domain).resolve? field = .ok found) (op : Operator) (value : Value) :
    holds facts ⟨domain, field, op, value⟩ = holdsOn ⟨domain, field, op, value⟩ found := by
  rw [holds, hfield]
  rfl

theorem holds_int {facts : Facts} {domain : Domain} {field : String} {op : Operator} {rel : Int → Int → Bool}
    (hfield : (source facts domain).resolve? field = .ok (some (.int a))) (hop : op.relation? = some rel)
    (ha : a.natAbs < beyond) (hb : b.natAbs < beyond) :
    holds facts ⟨domain, field, op, .int b⟩ = .ok (rel (roundedInt a) (roundedInt b)) := by
  have hon : holdsOn ⟨domain, field, op, .int b⟩ (some (.int a)) = holdsOf op (.int a) (.int b) := by
    cases op with
    | present | absent => cases hop
    | _ => rw [holdsOn]
  rw [holds_of_resolve? hfield, hon]
  exact holdsOf_int hop ha hb

end Leaf

namespace Rule

open Binary64 (roundedInt)

variable {a b : Int}

/-- Rounding that brings no two integers together changes no comparison of them. -/
theorem relation_roundedInt_iff : (∀ op rel, Operator.relation? op = some rel →
    rel (roundedInt a) (roundedInt b) = rel a b) ↔ a = b ∨ roundedInt a ≠ roundedInt b := by
  constructor
  . intro h
    have heq := h .equal _ rfl
    rw [Bool.eq_iff_iff, beq_iff_eq, beq_iff_eq] at heq
    rw [← heq]
    exact Decidable.em _
  . rintro (rfl | hne) op rel hop
    . cases op <;> cases hop <;> simp
    . have hab : a ≠ b := fun h => hne (congrArg _ h)
      have hle : a ≤ b → roundedInt a ≤ roundedInt b := Binary64.roundedInt_mono
      have hge : b ≤ a → roundedInt b ≤ roundedInt a := Binary64.roundedInt_mono
      cases op <;> cases hop <;> rw [Bool.eq_iff_iff]
        <;> simp only [beq_iff_eq, bne_iff_ne, decide_eq_true_eq] <;> omega

/-- The integers that a column of integers holds. -/
def IsWord (n : Int) : Prop :=
  -Column.wordLimit ≤ n ∧ n < Column.wordLimit

instance (n : Int) : Decidable (IsWord n) :=
  inferInstanceAs (Decidable (_ ∧ _))

theorem IsWord.lt_beyond {n : Int} (h : IsWord n) : n.natAbs < Binary64.beyond := by
  have hlimit : Column.wordLimit < Binary64.beyond := by decide +kernel
  obtain ⟨hlow, hhigh⟩ := h
  generalize Column.wordLimit = limit at *
  generalize Binary64.beyond = beyond at *
  omega

theorem integers_compared {facts : Facts} {domain : Domain} {field : String}
    (hfield : (Leaf.source facts domain).resolve? field = .ok (some (.int a))) (ha : IsWord a) (hb : IsWord b) :
    (∀ op rel, op.relation? = some rel →
      (leaf ⟨domain, field, op, .int b⟩).holds facts = .ok (rel (roundedInt a) (roundedInt b))) ∧
    ((∀ op rel, op.relation? = some rel → (leaf ⟨domain, field, op, .int b⟩).holds facts = .ok (rel a b)) ↔
      a = b ∨ roundedInt a ≠ roundedInt b) ∧
    (a.natAbs < 2 ^ 53 ∨ b.natAbs < 2 ^ 53 ∨ (a.natAbs ≤ 2 ^ 53 ∧ b.natAbs ≤ 2 ^ 53) →
      a = b ∨ roundedInt a ≠ roundedInt b) := by
  have hholds (op : Operator) (rel : Int → Int → Bool) (hop : op.relation? = some rel) :
      (leaf ⟨domain, field, op, .int b⟩).holds facts = .ok (rel (roundedInt a) (roundedInt b)) :=
    Leaf.holds_int hfield hop ha.lt_beyond hb.lt_beyond
  refine ⟨hholds, ?_, ?_⟩
  . rw [← relation_roundedInt_iff]
    refine forall₃_congr fun op rel hop => ?_
    rw [hholds op rel hop, Except.ok.injEq]
  . intro hsmall
    rw [or_iff_not_imp_left]
    intro hne
    rcases hsmall with hsmall | hsmall | ⟨hle, hle'⟩
    . exact Binary64.roundedInt_ne hsmall hne
    . exact (Binary64.roundedInt_ne hsmall (Ne.symm hne)).symm
    . rwa [Binary64.roundedInt_of_le hle, Binary64.roundedInt_of_le hle']

def scoreOf (n : Int) : Facts := ⟨.object [("lead_score", .int n)], .null⟩

theorem integers_compared_scored : (leaf ⟨.entity, "lead_score", .less, .int 75⟩).holds (scoreOf 80) = .ok false := by
  have hfield : (Leaf.source (scoreOf 80) .entity).resolve? "lead_score" = .ok (some (.int 80)) := rfl
  obtain ⟨-, hexact, hsmall⟩ := integers_compared (b := 75) hfield (by decide) (by decide)
  exact hexact.mpr (hsmall (by decide)) .less _ rfl

/-- The least two integers that are counted as one number. -/
theorem integers_mistaken : ¬∀ (facts : Facts) domain field a b, IsWord a → IsWord b →
    (Leaf.source facts domain).resolve? field = .ok (some (.int a)) →
      ∀ op rel, op.relation? = some rel → (leaf ⟨domain, field, op, .int b⟩).holds facts = .ok (rel a b) := by
  intro h
  have heq := h (scoreOf (2 ^ 53 + 1)) .entity "lead_score" (2 ^ 53 + 1) (2 ^ 53) (by decide +kernel)
    (by decide +kernel) rfl .equal _ rfl
  have hholds : ((leaf ⟨.entity, "lead_score", .equal, .int (2 ^ 53)⟩).holds (scoreOf (2 ^ 53 + 1))).toOption =
      some true := by
    decide +kernel
  rw [heq] at hholds
  exact absurd hholds (by decide +kernel)

end Rule

end StageGate
