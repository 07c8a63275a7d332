import StageGate.Value

/-!
This module contains what numbers stand for, whatever their kind: a rational number, an infinity, or
nothing. True stands for one and false for zero.
-/

namespace StageGate

inductive Magnitude where
  | finite (value : Rat)
  | infinite (negative : Bool)
  | nothing
  deriving DecidableEq

namespace Magnitude

def lt : Magnitude → Magnitude → Bool
  | .finite p, .finite q => p < q
  | .infinite a, .infinite b => a && !b
  | .infinite a, .finite _ => a
  | .finite _, .infinite b => !b
  | _, _ => false

def eq : Magnitude → Magnitude → Bool
  | .finite p, .finite q => p == q
  | .infinite a, .infinite b => a == b
  | _, _ => false

def le (x y : Magnitude) : Bool :=
  x.lt y || x.eq y

def ofInt (n : Int) : Magnitude :=
  .finite n

theorem eq_comm (x y : Magnitude) : x.eq y = y.eq x := by
  cases x <;> cases y <;> simp [eq, Bool.beq_comm]

theorem lt_ofInt (m n : Int) : (ofInt m).lt (ofInt n) = decide (m < n) := by
  simp only [lt, ofInt, Rat.intCast_lt_intCast]

theorem eq_ofInt (m n : Int) : (ofInt m).eq (ofInt n) = (m == n) := by
  simp only [eq, ofInt]
  rw [Bool.eq_iff_iff]
  simp only [beq_iff_eq, Rat.intCast_inj]

end Magnitude

def Binary64.magnitude : Binary64 → Magnitude
  | .finite negative n => .finite (mkRat (if negative then -n else n) Binary64.one)
  | .infinite negative => .infinite negative
  | .nan => .nothing

def Decimal.magnitude : Decimal → Magnitude
  | .finite ⟨negative, coefficient, exponent⟩ =>
    let n : Int := coefficient * Nat.pow 10 exponent.toNat
    .finite (mkRat (if negative then -n else n) (Nat.pow 10 (-exponent).toNat))
  | .infinite negative => .infinite negative
  | .nan .. => .nothing

def Value.magnitude? : Value → Option Magnitude
  | .bool b => some (.ofInt (if b then 1 else 0))
  | .int n => some (.ofInt n)
  | .float x => some x.magnitude
  | .decimal x => some x.magnitude
  | _ => none

def Value.isBelow (v w : Value) : Bool :=
  match v.magnitude?, w.magnitude? with
  | some x, some y => x.lt y
  | _, _ => false

theorem Value.isBelow_int (m n : Int) : Value.isBelow (.int m) (.int n) = decide (m < n) :=
  Magnitude.lt_ofInt m n

end StageGate
