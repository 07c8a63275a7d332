import StageGate.Binary64.Extended
import StageGate.Binary64.Text
import StageGate.Numeral

/-!
This module contains the texts of numbers in the store: how a text column keeps a number, and how a
number column reads a text. Both calculate with 64 significant bits step by step, so that the last digit
may differ from the one of the nearest number.
-/

namespace StageGate

namespace Binary64

/-- A number between one and ten, and the power of ten that it is to be multiplied by. -/
structure Scaled where
  value : Extended
  exponent : Int

namespace Scaled

def climb (value step : Extended) (stepExponent : Nat) :
    Nat → Extended → Nat → Extended × Nat
  | 0, scale, exponent => (scale, exponent)
  | rounds + 1, scale, exponent =>
    if (step.mul scale).le value then
      climb value step stepExponent rounds (scale.mul step) (exponent + stepExponent)
    else
      (scale, exponent)

def lift (bound step : Extended) (stepExponent : Nat) : Nat → Scaled → Scaled
  | 0, x => x
  | rounds + 1, x =>
    if bound.le x.value then x
    else lift bound step stepExponent rounds ⟨x.value.mul step, x.exponent - stepExponent⟩

def tenTo (exponent : Int) : Extended :=
  .ofUnits (ofDecimal false 1 exponent).units.natAbs

def ofUnits (n : Nat) : Scaled :=
  let value := Extended.ofUnits n
  let (scale, exponent) := climb value (tenTo 100) 100 4 (.ofNat 1) 0
  let (scale, exponent) := climb value (tenTo 10) 10 10 scale exponent
  let (scale, exponent) := climb value (tenTo 1) 1 10 scale exponent
  lift (.ofNat 1) (tenTo 1) 1 10 (lift (tenTo (-8)) (tenTo 8) 8 50 ⟨value.div scale, exponent⟩)

def half : Extended :=
  .ofUnits ((ofDecimal false 5 (-5)).mul (ofDecimal false 1 (-10))).units.natAbs

def roundUp (x : Scaled) : Scaled :=
  let value := x.value.add half
  if (Extended.ofNat 10).le value then ⟨value.mul (tenTo (-1)), x.exponent + 1⟩
  else ⟨value, x.exponent⟩

def digits : Nat → Extended → List Char
  | 0, _ => []
  | count + 1, x => Nat.digitChar x.floor :: digits count (x.fraction.mul (.ofNat 10))

def toDigitString (x : Scaled) : DigitString :=
  ⟨((digits 15 x.value).reverse.dropWhile (· == '0')).reverse, x.exponent + 1⟩

end Scaled

/-- Fifteen significant digits with a fraction always shown: how a text column keeps a number. -/
def columnText : Binary64 → String
  | .finite negative n =>
    if n = 0 then "0.0"
    else
      String.ofList (signText negative ++
        (Scaled.ofUnits n).roundUp.toDigitString.layOut ⟨-3, 15, ['.', '0'], ['.', '0']⟩)
  | .infinite negative => if negative then "-Inf" else "Inf"
  | .nan => "NaN"

end Binary64

namespace Numeral

def manyDigits : Nat := (Nat.pow 2 63 - 10) / 10

def unreadDigits (coefficient : Nat) : Nat :=
  let spare := Binary64.digitCount coefficient - 18
  if manyDigits ≤ coefficient / Nat.pow 10 spare then spare else spare - 1

def absorb : Nat → Nat → Nat × Nat
  | 0, coefficient => (coefficient, 0)
  | exponent + 1, coefficient =>
    if (Nat.pow 2 63 - 1) / 10 ≤ coefficient then (coefficient, exponent + 1)
    else absorb exponent (10 * coefficient)

def reduce : Nat → Nat → Nat × Nat
  | 0, coefficient => (coefficient, 0)
  | exponent + 1, coefficient =>
    if coefficient % 10 = 0 then reduce exponent (coefficient / 10)
    else (coefficient, exponent + 1)

def greatestExponent : Nat := 308

def vanishingExponent : Nat := 342

def raised (negative : Bool) (coefficient exponent : Nat) : Binary64 :=
  let (n, e) := absorb exponent coefficient
  let product (e : Nat) : Binary64 := ((Extended.ofNat n).mul (.powerOfTen e)).toBinary64 negative
  if e < greatestExponent then product e
  else (product (e - greatestExponent)).mul (.ofDecimal false 1 greatestExponent)

def lowered (negative : Bool) (coefficient exponent : Nat) : Binary64 :=
  let (n, e) := reduce exponent coefficient
  let quotient (e : Nat) : Binary64 := ((Extended.ofNat n).div (.powerOfTen e)).toBinary64 negative
  if e < greatestExponent then quotient e
  else if e < vanishingExponent then
    (quotient (e - greatestExponent)).div (.ofDecimal false 1 greatestExponent)
  else .finite negative 0

def endlessExponent : Nat := 400

def toColumn (n : Numeral) : Binary64 :=
  let unread := unreadDigits n.coefficient
  let coefficient := n.coefficient / Nat.pow 10 unread
  let exponent := n.exponent + unread
  if coefficient = 0 || exponent < -endlessExponent then .finite n.negative 0
  else if endlessExponent < exponent then .infinite n.negative
  else if 0 ≤ exponent then raised n.negative coefficient exponent.toNat
  else lowered n.negative coefficient exponent.natAbs

end Numeral

end StageGate
