import StageGate.Binary64

/-!
This module contains numbers of 64 significant bits, in which longer calculations are made before their
result becomes a binary64 number. They have no sign, and their exponents are not limited.
-/

namespace StageGate

/-- The number `mantissa * 2 ^ exponent`. -/
structure Extended where
  mantissa : Nat
  exponent : Int
  deriving DecidableEq

namespace Extended

def exponentFor (n d : Nat) : Int :=
  let e := (n.log2 : Int) - d.log2 - 63
  if n * Nat.pow 2 (-e).toNat < Nat.pow 2 63 * d * Nat.pow 2 e.toNat then e - 1 else e

def ofRatio (n d : Nat) (exponent : Int) : Extended :=
  if n = 0 then ⟨0, 0⟩
  else
    let e := exponentFor n d
    ⟨roundDiv (n * Nat.pow 2 (-e).toNat) (d * Nat.pow 2 e.toNat), exponent + e⟩

def ofNat (n : Nat) : Extended :=
  ofRatio n 1 0

def ofUnits (n : Nat) : Extended :=
  ofRatio n 1 (-1074)

def toBinary64 (negative : Bool) (x : Extended) : Binary64 :=
  .ofRatio negative (x.mantissa * Nat.pow 2 x.exponent.toNat) (Nat.pow 2 (-x.exponent).toNat)

def scaled (x : Extended) (exponent : Int) : Nat :=
  x.mantissa * Nat.pow 2 (x.exponent - exponent).toNat

def add (x y : Extended) : Extended :=
  let e := min x.exponent y.exponent
  ofRatio (x.scaled e + y.scaled e) 1 e

def mul (x y : Extended) : Extended :=
  ofRatio (x.mantissa * y.mantissa) 1 (x.exponent + y.exponent)

def div (x y : Extended) : Extended :=
  ofRatio x.mantissa y.mantissa (x.exponent - y.exponent)

def le (x y : Extended) : Bool :=
  let e := min x.exponent y.exponent
  x.scaled e ≤ y.scaled e

def floor (x : Extended) : Nat :=
  x.mantissa * Nat.pow 2 x.exponent.toNat / Nat.pow 2 (-x.exponent).toNat

def fraction (x : Extended) : Extended :=
  let e := min x.exponent 0
  ofRatio (x.scaled e - x.floor * Nat.pow 2 (-e).toNat) 1 e

def powerOfTen (n : Nat) : Extended :=
  go (ofNat 1) (ofNat 10) n
where
  go (r x : Extended) (n : Nat) : Extended :=
    if n = 0 then r
    else go (if n % 2 = 1 then r.mul x else r) (x.mul x) (n / 2)
  termination_by n

end Extended

end StageGate
