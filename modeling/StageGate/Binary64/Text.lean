import StageGate.Binary64

/-!
This module contains the decimal texts of binary64 numbers: the fewest digits that read back, a given
number of significant digits, and a given number of places.
-/

namespace StageGate

/-- The value `0.d₁d₂… * 10 ^ point`, for the digits `d₁d₂…` of `digits`. -/
structure DigitString where
  digits : List Char
  point : Int

namespace DigitString

def ofCoefficient (coefficient : Nat) (exponent : Int) : DigitString :=
  let digits := coefficient.repr.toList
  ⟨(digits.reverse.dropWhile (· == '0')).reverse, digits.length + exponent⟩

def zeros (count : Nat) : DigitString :=
  ⟨List.replicate count '0', 1⟩

def fill (count : Nat) (s : DigitString) : DigitString :=
  { s with digits := s.digits ++ List.replicate (count - s.digits.length) '0' }

/--
How the digits of a number are written: the decimal points that are written in place (`first` to
`last`), and what stands for the fraction of a number without one, in place and before an exponent.
-/
structure Layout where
  first : Int
  last : Int
  wholeFraction : List Char
  scaledFraction : List Char

def fraction (absent digits : List Char) : List Char :=
  if digits.isEmpty then absent else '.' :: digits

def exponentText (e : Int) : List Char :=
  (if e < 0 then '-' else '+') :: (if e.natAbs < 10 then ['0'] else []) ++ e.natAbs.repr.toList

def layOut (layout : Layout) (s : DigitString) : List Char :=
  if layout.first ≤ s.point && s.point ≤ layout.last then
    if s.point ≤ 0 then
      '0' :: fraction [] (List.replicate (-s.point).toNat '0' ++ s.digits)
    else
      let whole := s.digits.take s.point.toNat
      whole ++ List.replicate (s.point.toNat - whole.length) '0' ++
        fraction layout.wholeFraction (s.digits.drop s.point.toNat)
  else
    s.digits.take 1 ++ fraction layout.scaledFraction (s.digits.drop 1) ++
      'e' :: exponentText (s.point - 1)

end DigitString

def fixedDigits (places n : Nat) : List Char :=
  let digits := n.repr.toList
  let digits := List.replicate (places + 1 - digits.length) '0' ++ digits
  let whole := digits.take (digits.length - places)
  if places = 0 then whole else whole ++ '.' :: digits.drop (digits.length - places)

namespace Binary64

def decimalExponent (n : Nat) : Int :=
  digitCount (n * Nat.pow 10 400 / one) - 401

def scaled (n : Nat) (places : Int) : Nat × Nat :=
  (n * Nat.pow 10 places.toNat, one * Nat.pow 10 (-places).toNat)

def readsBack (n coefficient : Nat) (places : Int) : Bool :=
  nearest (coefficient * Nat.pow 10 (-places).toNat * one) (Nat.pow 10 places.toNat) == n

/--
The number with `count` significant digits that reads back as `n` units, if there is one. Only the two
neighbours of the value can be; the nearer one is preferred, and of two that are equally near the even one.
-/
def shortestWith? (n count : Nat) : Option DigitString :=
  let places := count - 1 - decimalExponent n
  let (m, d) := scaled n places
  let below := m / d
  let order := if roundDiv m d = below then [below, below + 1] else [below + 1, below]
  (order.find? (readsBack n · places)).map fun c => .ofCoefficient c (-places)

def shortest (n : Nat) : DigitString :=
  ((List.range 17).findSome? fun i => shortestWith? n (i + 1)).getD ⟨[], 0⟩

def exactPlaces : Nat := 1074

def significant (n count : Nat) : DigitString :=
  let places := min (count - 1 - decimalExponent n) exactPlaces
  let (m, d) := scaled n places
  .ofCoefficient (roundDiv m d) (-places)

def signText (negative : Bool) : List Char :=
  if negative then ['-'] else []

def textWith (body : Nat → List Char) : Binary64 → String
  | .finite negative n => String.ofList (signText negative ++ body n)
  | .infinite negative => String.ofList (signText negative ++ ['i', 'n', 'f'])
  | .nan => "nan"

def text (x : Binary64) : String :=
  x.textWith fun n =>
    if n = 0 then ['0', '.', '0'] else (shortest n).layOut ⟨-3, 16, ['.', '0'], []⟩

def lonePoint (shown : Bool) : List Char :=
  if shown then ['.'] else []

def generalTextWith (digits : Nat) (all : Bool) (x : Binary64) : String :=
  let digits := max digits 1
  x.textWith fun n =>
    let s := if n = 0 then .zeros 1 else significant n digits
    let s := if all then s.fill digits else s
    s.layOut ⟨-3, digits, lonePoint all, lonePoint all⟩

def generalText (x : Binary64) : String :=
  x.generalTextWith 6 false

def scientificText (places : Nat) (point : Bool) (x : Binary64) : String :=
  x.textWith fun n =>
    let s := (if n = 0 then .zeros 1 else significant n (places + 1)).fill (places + 1)
    s.layOut ⟨1, 0, [], lonePoint point⟩

def fixedText (places : Nat) (x : Binary64) : String :=
  x.textWith fun n =>
    let kept := min places exactPlaces
    fixedDigits kept (roundDiv (n * Nat.pow 10 kept) one) ++ List.replicate (places - kept) '0'

end Binary64

end StageGate
