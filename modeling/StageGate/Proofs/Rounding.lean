import Mathlib.Algebra.Group.Nat.Defs
import StageGate.Proofs.Numbers

/-!
This module contains how numbers are rounded and how they are counted on. Rounding keeps their order. An integer is
counted on exactly. A float is rounded, but what has been rounded once is not rounded again, so counting on from a
float either comes to the next number, or no float comes to that number at all.
-/

namespace StageGate

theorem roundDiv_mul_mul {k : Nat} (hk : 0 < k) (n d : Nat) : roundDiv (k * n) (k * d) = roundDiv n d := by
  have hlt (a b : Nat) : k * a < k * b ↔ a < b := Nat.mul_lt_mul_left hk
  unfold roundDiv
  simp only [Nat.mul_div_mul_left n d hk, Nat.mul_mod_mul_left, Nat.mul_left_comm 2 k, hlt]

theorem roundDiv_le (n d : Nat) : roundDiv n d ≤ n / d + 1 := by
  unfold roundDiv
  dsimp only
  split
  . omega
  . split <;> omega

theorem le_roundDiv (n d : Nat) : n / d ≤ roundDiv n d := by
  unfold roundDiv
  dsimp only
  split
  . omega
  . split <;> omega

theorem two_mul_roundDiv_le (n : Nat) {d : Nat} (hd : 0 < d) : 2 * (roundDiv n d * d) ≤ 2 * n + d := by
  have hsplit := Nat.div_add_mod' n d
  have hup : (n / d + 1) * d = n / d * d + d := Nat.succ_mul ..
  unfold roundDiv
  dsimp only
  split
  . omega
  . split
    . omega
    . rcases Nat.mod_two_eq_zero_or_one (n / d) with heven | hodd
      . rw [heven, Nat.add_zero]
        omega
      . rw [hodd]
        omega

theorem roundDiv_mono {m n : Nat} (h : m ≤ n) (d : Nat) : roundDiv m d ≤ roundDiv n d := by
  have hq : m / d ≤ n / d := Nat.div_le_div_right h
  rcases Nat.lt_or_eq_of_le hq with hlt | heq
  . calc roundDiv m d
      _ ≤ m / d + 1 := roundDiv_le m d
      _ ≤ n / d := hlt
      _ ≤ roundDiv n d := le_roundDiv n d
  -- With one quotient the remainders are in the order of the numbers.
  . have hm := Nat.div_add_mod m d
    have hn := Nat.div_add_mod n d
    rw [heq] at hm
    have hr : m % d ≤ n % d := by omega
    unfold roundDiv
    dsimp only
    rw [heq]
    generalize n / d = q
    generalize m % d = r at hr
    generalize n % d = r' at hr
    repeat' split
    all_goals omega

namespace Binary64

theorem one_eq : one = 2 ^ 1074 := by
  decide +kernel

theorem one_pos : 0 < one := by
  decide +kernel

theorem roundDiv_two_pow {b s d : Nat} (hd : 0 < d) (h : s ≤ b) :
    roundDiv (2 ^ b * d) (d * 2 ^ s) * 2 ^ s = 2 ^ b := by
  have hb : (2 : Nat) ^ b = 2 ^ (b - s) * 2 ^ s := by
    rw [← Nat.pow_add, Nat.sub_add_cancel h]
  rw [Nat.mul_comm (2 ^ b) d, roundDiv_mul_mul hd, hb, roundDiv_mul _ (Nat.two_pow_pos s)]

theorem log2_mono {m n : Nat} (h : m ≤ n) : m.log2 ≤ n.log2 := by
  rcases Nat.eq_zero_or_pos m with rfl | hm
  . rw [Nat.log2_zero]
    exact Nat.zero_le _
  . apply (Nat.le_log2 (by omega)).mpr
    exact Nat.le_trans (Nat.log2_self_le (by omega)) h

theorem nearest_mono {m n d : Nat} (hd : 0 < d) (h : m ≤ n) : nearest m d ≤ nearest n d := by
  have hlog : (m / d).log2 ≤ (n / d).log2 := log2_mono (Nat.div_le_div_right h)
  unfold nearest
  simp only [Nat.pow_eq]
  rcases Nat.lt_or_eq_of_le hlog with hlt | heq
  -- A power of two is between the two, and stays between what they round to.
  . have hn : n / d ≠ 0 := by
      intro h0
      rw [h0, Nat.log2_zero] at hlt
      omega
    have hle : 2 ^ (n / d).log2 * d ≤ n := (Nat.le_div_iff_mul_le hd).mp (Nat.log2_self_le hn)
    have hge : m ≤ 2 ^ (n / d).log2 * d := by
      have hm : m / d < 2 ^ (n / d).log2 :=
        Nat.lt_of_lt_of_le Nat.lt_log2_self (Nat.pow_le_pow_right (by omega) hlt)
      exact Nat.le_of_lt ((Nat.div_lt_iff_lt_mul hd).mp hm)
    have hlow : (m / d).log2 - 52 ≤ (n / d).log2 := by omega
    have hhigh : (n / d).log2 - 52 ≤ (n / d).log2 := Nat.sub_le ..
    calc roundDiv m (d * 2 ^ ((m / d).log2 - 52)) * 2 ^ ((m / d).log2 - 52)
      _ ≤ roundDiv (2 ^ (n / d).log2 * d) (d * 2 ^ ((m / d).log2 - 52)) * 2 ^ ((m / d).log2 - 52) :=
        Nat.mul_le_mul_right _ (roundDiv_mono hge _)
      _ = 2 ^ (n / d).log2 := roundDiv_two_pow hd hlow
      _ = roundDiv (2 ^ (n / d).log2 * d) (d * 2 ^ ((n / d).log2 - 52)) * 2 ^ ((n / d).log2 - 52) :=
        (roundDiv_two_pow hd hhigh).symm
      _ ≤ roundDiv n (d * 2 ^ ((n / d).log2 - 52)) * 2 ^ ((n / d).log2 - 52) :=
        Nat.mul_le_mul_right _ (roundDiv_mono hle _)
  -- Both are rounded to multiples of one power of two.
  . rw [heq]
    exact Nat.mul_le_mul_right _ (roundDiv_mono h _)

/-- The number that is nearest is not more than half a step above. -/
theorem two_mul_nearest_le (n : Nat) {d : Nat} (hd : 0 < d) :
    2 * (nearest n d * d) ≤ 2 * n + d * 2 ^ ((n / d).log2 - 52) := by
  have h := two_mul_roundDiv_le n (Nat.mul_pos hd (Nat.two_pow_pos ((n / d).log2 - 52)))
  unfold nearest
  simp only [Nat.pow_eq]
  rwa [Nat.mul_right_comm, Nat.mul_assoc (roundDiv ..)]

/-- The units of the number nearest to so many units. -/
def rounded (units : Nat) : Nat :=
  nearest (units * one) one

theorem nearest_mul (units : Nat) {d : Nat} (hd : 0 < d) :
    nearest (units * d) d = roundDiv units (2 ^ (units.log2 - 52)) * 2 ^ (units.log2 - 52) := by
  unfold nearest
  rw [Nat.mul_div_cancel _ hd, Nat.mul_comm units d]
  simp only [roundDiv_mul_mul hd, Nat.pow_eq]

theorem rounded_eq (units : Nat) :
    rounded units = roundDiv units (2 ^ (units.log2 - 52)) * 2 ^ (units.log2 - 52) :=
  nearest_mul units one_pos

theorem rounded_mono {m n : Nat} (h : m ≤ n) : rounded m ≤ rounded n :=
  nearest_mono one_pos (Nat.mul_le_mul_right one h)

theorem rounded_of_dvd {n : Nat} (h : 2 ^ (n.log2 - 52) ∣ n) : rounded n = n := by
  obtain ⟨m, hm⟩ := h
  rw [rounded_eq]
  generalize n.log2 - 52 = spare at hm
  rw [hm, Nat.mul_comm (2 ^ spare) m, roundDiv_mul m (Nat.two_pow_pos spare)]

/-- A number that few bits make up is the nearest one to itself. -/
theorem rounded_mul_pow {q : Nat} (hq : q ≤ 2 ^ 53) (s : Nat) : rounded (q * 2 ^ s) = q * 2 ^ s := by
  apply rounded_of_dvd
  by_cases hle : (q * 2 ^ s).log2 - 52 ≤ s
  . exact Nat.dvd_mul_left_of_dvd (Nat.pow_dvd_pow 2 hle) q
  -- Only the greatest quotient needs a bit more, and it is a power of two itself.
  . have hlog : s + 53 ≤ (q * 2 ^ s).log2 := by omega
    have hne : q * 2 ^ s ≠ 0 := by
      intro h
      rw [h, Nat.log2_zero] at hlog
      omega
    have hbound : 2 ^ (s + 53) ≤ q * 2 ^ s := (Nat.le_log2 hne).mp hlog
    have hpow : (2 : Nat) ^ (s + 53) = 2 ^ 53 * 2 ^ s := by rw [Nat.add_comm, Nat.pow_add]
    have heq : q * 2 ^ s = 2 ^ (s + 53) := by
      rw [hpow] at hbound ⊢
      exact Nat.le_antisymm (Nat.mul_le_mul_right _ hq) hbound
    rw [heq, Nat.log2_two_pow]
    exact Nat.pow_dvd_pow 2 (by omega)

theorem le_rounded {n k : Nat} (h : 2 ^ k ≤ n) : 2 ^ k ≤ rounded n := by
  have hpow : rounded (2 ^ k) = 2 ^ k := by
    simpa using rounded_mul_pow (by omega : 1 ≤ 2 ^ 53) k
  rw [← hpow]
  exact rounded_mono h

theorem roundDiv_log2_le (n : Nat) : roundDiv n (2 ^ (n.log2 - 52)) ≤ 2 ^ 53 := by
  have hlt : n / 2 ^ (n.log2 - 52) < 2 ^ 53 := by
    apply Nat.div_lt_of_lt_mul
    rw [← Nat.pow_add]
    exact Nat.lt_of_lt_of_le Nat.lt_log2_self (Nat.pow_le_pow_right (by omega) (by omega))
  have := roundDiv_le n (2 ^ (n.log2 - 52))
  omega

theorem rounded_rounded (n : Nat) : rounded (rounded n) = rounded n := by
  rw [rounded_eq n]
  apply rounded_mul_pow
  exact roundDiv_log2_le n

theorem rounded_pos {n : Nat} (h : 0 < n) : 0 < rounded n := by
  rw [rounded_eq]
  have hle : 2 ^ (n.log2 - 52) ≤ n :=
    Nat.le_trans (Nat.pow_le_pow_right (by omega) (Nat.sub_le ..)) (Nat.log2_self_le (by omega))
  have hdiv : 0 < n / 2 ^ (n.log2 - 52) := Nat.div_pos hle (Nat.two_pow_pos _)
  have := le_roundDiv n (2 ^ (n.log2 - 52))
  exact Nat.mul_pos (by omega) (Nat.two_pow_pos _)

end Binary64

/-! ## What numbers stand for -/

namespace Value

/-- A value that stands for an integer, as a number of any kind. -/
def Stands (v : Value) (n : Int) : Prop :=
  v.magnitude? = some (.ofInt n)

variable {v w : Value} {m n : Int}

@[simp]
theorem stands_int : Stands (.int m) n ↔ m = n := by
  simp [Stands, magnitude?, Magnitude.ofInt]

theorem stands_bool {b : Bool} : Stands (.bool b) n ↔ (if b then 1 else 0) = n := by
  cases b with
  | true => exact stands_int
  | false => exact stands_int

theorem Stands.unique (hm : v.Stands m) (hn : v.Stands n) : m = n := by
  unfold Stands at *
  simpa [Magnitude.ofInt] using hm.symm.trans hn

theorem Stands.same_iff (hw : w.Stands n) : v.same w ↔ v.Stands n := by
  unfold Stands at hw
  unfold Stands
  rw [same_of_magnitude_right (by rw [hw]; rfl), sameNumber, hw]
  cases v.magnitude? with
  | none => simp
  | some x => cases x <;> simp [Magnitude.eq, Magnitude.ofInt]

theorem Stands.not_same (hv : v.Stands m) (hw : w.Stands n) (hne : m ≠ n) : v.same w = false := by
  rw [← Bool.not_eq_true, hw.same_iff]
  exact fun hv' => hne (hv.unique hv')

theorem Stands.of_same (hv : v.Stands n) (h : v.same w) : w.Stands n := by
  unfold Stands at *
  rw [same_of_magnitude_left (by rw [hv]; rfl), sameNumber, hv] at h
  cases hw : w.magnitude? with
  | none => simp [hw] at h
  | some y => cases y <;> simp_all [Magnitude.eq, Magnitude.ofInt]

theorem same_int_iff : v.same (.int n) ↔ v.Stands n :=
  Stands.same_iff (stands_int.mpr rfl)

theorem Stands.isNumber (h : v.Stands n) (hd : v.isDecimal = false) : v.isNumber := by
  unfold Stands at h
  simp [Value.isNumber, h, hd, Magnitude.ofInt]

theorem stands_of_whole? (h : v.whole? = some n) : v.Stands n := by
  cases v with
  | int m =>
    cases h
    exact stands_int.mpr rfl
  | bool b =>
    cases h
    exact stands_bool.mpr rfl
  | _ => cases h

theorem succ_of_whole? (h : v.whole? = some n) : v.succ = .ok (.int (n + 1)) := by
  cases v with
  | int m =>
    cases h
    rfl
  | bool b =>
    cases h
    cases b <;> rfl
  | _ => cases h

theorem Stands.isKey (h : v.Stands n) : v.isKey := by
  cases v with
  | decimal x =>
    cases x with
    | nan =>
      simp only [Stands, magnitude?, Option.some.injEq] at h
      cases h
    | _ => rfl
  | _ => first | rfl | simp [Stands, magnitude?] at h

theorem Stands.isBelow_iff (hv : v.Stands m) (hw : w.Stands n) : v.isBelow w ↔ m < n := by
  unfold Stands at hv hw
  simp [isBelow, hv, hw, Magnitude.lt_ofInt]

theorem Stands.atMost_iff (hv : v.Stands m) (hw : w.Stands n) : Column.atMost v w ↔ m ≤ n := by
  unfold Column.atMost
  split
  . rw [stands_int] at hv hw
    rw [hv, hw, decide_eq_true_eq]
  . simp [Stands, magnitude?] at hv
  . unfold Stands at hv hw
    simp only [hv, hw, Magnitude.le, Magnitude.lt_ofInt, Magnitude.eq_ofInt, Bool.or_eq_true, decide_eq_true_eq,
      beq_iff_eq]
    omega

theorem mkRat_eq_intCast {a n : Int} {d : Nat} (hd : 0 < d) : mkRat a d = (n : Rat) ↔ a = n * d := by
  rw [← Rat.mkRat_one n, Rat.mkRat_eq_iff (by omega) (by omega)]
  omega

theorem stands_finite {negative : Bool} {units : Nat} : Stands (.float (.finite negative units)) n ↔
    (if negative then -(units : Int) else units) = n * Binary64.one := by
  unfold Stands magnitude? Magnitude.ofInt
  simp only [Option.some.injEq, Binary64.magnitude, Magnitude.finite.injEq, mkRat_eq_intCast Binary64.one_pos]

theorem stands_float {x : Binary64} (hn : 0 < n) :
    Stands (.float x) n ↔ x = .finite false (n.toNat * Binary64.one) := by
  have hone := Binary64.one_pos
  have hto : (n.toNat : Int) = n := Int.toNat_of_nonneg (by omega)
  cases x with
  | finite negative units =>
    rw [stands_finite, Binary64.finite.injEq]
    generalize Binary64.one = d at hone
    have hpos : 0 < n * d := Int.mul_pos hn (by omega)
    have hcast : ((n.toNat * d : Nat) : Int) = n * d := by rw [Int.natCast_mul, hto]
    cases negative with
    | false =>
      simp only [Bool.false_eq_true, ↓reduceIte, true_and]
      omega
    | true =>
      simp only [↓reduceIte, Bool.true_eq_false, false_and, iff_false]
      omega
  | _ => simp [Stands, magnitude?, Magnitude.ofInt, Binary64.magnitude]

/-! ## Counting on -/

/-- Whether the float nearest to one integer stands for another one, beyond zero. -/
def Rounds (n m : Int) : Prop :=
  0 < m ∧ Binary64.rounded (n.toNat * Binary64.one) = m.toNat * Binary64.one

theorem Rounds.fixed (h : Rounds n m) : Rounds m m := by
  refine ⟨h.1, ?_⟩
  rw [← h.2, Binary64.rounded_rounded]

theorem Rounds.unique {m' : Int} (h : Rounds n m) (h' : Rounds n m') : m = m' := by
  have heq := Nat.eq_of_mul_eq_mul_right Binary64.one_pos (h.2.symm.trans h'.2)
  have := h.1
  have := h'.1
  omega

theorem succ_float (x : Binary64) : succ (.float x) = .ok (.float (x.sub (.finite true Binary64.one))) := by
  have hone : (Binary64.ofInt (-1)).bounded? = some (.finite true Binary64.one) := by decide +kernel
  have hstep : toFloat (.int (-1)) = .ok (.finite true Binary64.one) := by
    unfold toFloat
    simp only [whole?]
    rw [hone]
    rfl
  have hself : toFloat (.float x) = .ok x := rfl
  simp only [succ, sub, whole?, hself, hstep, bind, Except.bind, pure, Except.pure]

theorem sub_one {units total : Nat} (h : units + Binary64.one = total) :
    Binary64.sub (.finite false units) (.finite true Binary64.one) =
      if Binary64.rounded total < Binary64.limit then .finite false (Binary64.rounded total)
      else .infinite false := by
  have hpos := Binary64.one_pos
  unfold Binary64.rounded Binary64.sub Binary64.neg Binary64.add Binary64.ofUnits Binary64.ofRatio Binary64.units
  generalize Binary64.one = d at hpos h
  have hne : ((units : Int) + d) ≠ 0 := by omega
  have hneg : ¬(units : Int) + d < 0 := by omega
  have habs : ((units : Int) + d).natAbs = total := by omega
  simp only [Bool.not_true, Bool.false_eq_true, ↓reduceIte, hne, hneg, decide_false, habs]

theorem rounds_of_succ {next : Value} {x : Binary64} (hx : Stands (.float x) n) (hn : 0 < n)
    (hsucc : succ (.float x) = .ok next) (hnext : next.Stands m) : Rounds (n + 1) m := by
  rw [stands_float hn] at hx
  have hto : (n + 1).toNat = n.toNat + 1 := by omega
  have htotal : n.toNat * Binary64.one + Binary64.one = (n + 1).toNat * Binary64.one := by
    rw [hto, Nat.add_mul, Nat.one_mul]
  have hpos : 0 < Binary64.rounded ((n + 1).toNat * Binary64.one) :=
    Binary64.rounded_pos (Nat.mul_pos (by omega) Binary64.one_pos)
  unfold Rounds
  generalize (n + 1).toNat * Binary64.one = total at htotal hpos
  rw [hx, succ_float, sub_one htotal, Except.ok.injEq] at hsucc
  subst hsucc
  split at hnext
  . rw [stands_finite] at hnext
    simp only [Bool.false_eq_true, ↓reduceIte] at hnext
    generalize Binary64.one = d at hnext
    have hm : 0 < m := by
      apply Int.lt_of_not_ge
      intro hle
      have : m * d ≤ 0 := Int.mul_nonpos_of_nonpos_of_nonneg hle (by omega)
      omega
    have hto : (m.toNat : Int) = m := Int.toNat_of_nonneg (by omega)
    refine ⟨hm, ?_⟩
    rw [← Int.natCast_inj, hnext, Int.natCast_mul, hto]
  . simp [Stands, magnitude?, Binary64.magnitude, Magnitude.ofInt] at hnext

theorem Stands.of_succ {next : Value} (hv : v.Stands n) (hn : 0 < n) (hd : v.isDecimal = false)
    (hsucc : v.succ = .ok next) (hnext : next.Stands m) : m = n + 1 ∨ (∃ x, v = .float x) ∧ Rounds (n + 1) m := by
  cases v with
  | bool b =>
    cases hsucc
    rw [stands_int] at hnext
    rw [stands_bool] at hv
    omega
  | int k =>
    cases hsucc
    rw [stands_int] at hv hnext
    omega
  | float x => exact .inr ⟨⟨x, rfl⟩, rounds_of_succ hv hn hsucc hnext⟩
  | decimal x => simp [isDecimal] at hd
  | _ => simp [Stands, magnitude?] at hv

end Value

end StageGate
