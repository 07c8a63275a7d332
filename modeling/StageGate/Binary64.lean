/-!
This module contains binary64 numbers as exact values. A finite number is a sign and a natural number
of units of `2 ^ -1074`, the distance between the smallest of them, so its order and its equality are
those of integers and rounding is a division of natural numbers.
-/

namespace StageGate

inductive Binary64 where
  | finite (negative : Bool) (units : Nat)
  | infinite (negative : Bool)
  | nan
  deriving DecidableEq, Inhabited

/-- The quotient of `n` and `d`, rounded to the nearest integer; a half goes to the even neighbour. -/
def roundDiv (n d : Nat) : Nat :=
  let q := n / d
  let r := n % d
  if 2 * r < d then q
  else if d < 2 * r then q + 1
  else q + q % 2

theorem roundDiv_mul (q : Nat) {d : Nat} (h : 0 < d) : roundDiv (q * d) d = q := by
  simp [roundDiv, Nat.mul_div_cancel _ h, h]

namespace Binary64

def one : Nat := Nat.pow 2 1074

def limit : Nat := Nat.pow 2 2098

def nearest (n d : Nat) : Nat :=
  let spare := (n / d).log2 - 52
  roundDiv n (d * Nat.pow 2 spare) * Nat.pow 2 spare

def ofRatio (negative : Bool) (n d : Nat) : Binary64 :=
  let units := nearest (n * one) d
  if units < limit then .finite negative units else .infinite negative

def zero : Binary64 := .finite false 0

def ofInt (i : Int) : Binary64 :=
  ofRatio (i < 0) i.natAbs 1

def digitCount (n : Nat) : Nat :=
  n.repr.length

def ofDecimal (negative : Bool) (coefficient : Nat) (exponent : Int) : Binary64 :=
  -- Judged from the number of digits first, so that a huge exponent costs nothing.
  let magnitude := digitCount coefficient + exponent
  if coefficient = 0 || magnitude < -330 then .finite negative 0
  else if 310 < magnitude then .infinite negative
  else ofRatio negative (coefficient * Nat.pow 10 exponent.toNat) (Nat.pow 10 (-exponent).toNat)

def isFinite : Binary64 → Bool
  | .finite .. => true
  | _ => false

def bounded? : Binary64 → Option Binary64
  | .infinite _ => none
  | x => some x

def units : Binary64 → Int
  | .finite negative n => if negative then -n else n
  | _ => 0

def lt : Binary64 → Binary64 → Bool
  | .nan, _ | _, .nan => false
  | .infinite a, .infinite b => a && !b
  | .infinite a, .finite .. => a
  | .finite .., .infinite b => !b
  | x, y => x.units < y.units

def eq : Binary64 → Binary64 → Bool
  | .finite a m, .finite b n => (finite a m).units == (finite b n).units
  | .infinite a, .infinite b => a == b
  | _, _ => false

def le (x y : Binary64) : Bool :=
  x.lt y || x.eq y

theorem eq_comm (x y : Binary64) : x.eq y = y.eq x := by
  cases x <;> cases y <;> simp [eq, Bool.beq_comm]

theorem eq_self {x : Binary64} (h : x ≠ .nan) : x.eq x = true := by
  cases x <;> simp_all [eq]

def truncate? : Binary64 → Option Int
  | .finite negative n => some (if negative then -(n / one : Nat) else (n / one : Nat))
  | _ => none

def isWhole : Binary64 → Bool
  | .finite _ n => n % one == 0
  | _ => false

def mul : Binary64 → Binary64 → Binary64
  | .finite a m, .finite b n => ofRatio (a != b) (m * n) (one * one)
  | .infinite a, .infinite b => .infinite (a != b)
  | .infinite a, .finite b n | .finite b n, .infinite a =>
    if n = 0 then .nan else .infinite (a != b)
  | _, _ => .nan

def div : Binary64 → Binary64 → Binary64
  | .finite a m, .finite b n => ofRatio (a != b) m n
  | x, _ => x

def neg : Binary64 → Binary64
  | .finite negative n => .finite (!negative) n
  | .infinite negative => .infinite (!negative)
  | .nan => .nan

def ofUnits (negative : Bool) (n : Int) : Binary64 :=
  if n = 0 then .finite negative 0 else ofRatio (n < 0) n.natAbs one

def add : Binary64 → Binary64 → Binary64
  | .finite a m, .finite b n => ofUnits (a && b) ((finite a m).units + (finite b n).units)
  | .infinite a, .infinite b => if a = b then .infinite a else .nan
  | .infinite a, .finite .. | .finite .., .infinite a => .infinite a
  | _, _ => .nan

def sub (x y : Binary64) : Binary64 :=
  x.add y.neg

def roundToTenths : Binary64 → Binary64
  | .finite negative n => ofRatio negative (roundDiv (n * 10) one) 10
  | x => x

end Binary64

end StageGate
