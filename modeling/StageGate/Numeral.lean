import StageGate.Binary64
import StageGate.Text.Blank
import StageGate.Text.Digit

/-!
This module contains numbers as they are written: the numerals of free text, which may be padded, may
group digits by single low lines and may use the digits of any script, and the numbers they stand for.
-/

namespace StageGate

/-- The number `±coefficient * 10 ^ exponent`. -/
structure Numeral where
  negative : Bool
  coefficient : Nat
  exponent : Int
  deriving DecidableEq

namespace Numeral

def isDigit (c : Char) : Bool :=
  '0' ≤ c && c ≤ '9'

def valueOf (digits : List Char) : Nat :=
  digits.foldl (fun n c => 10 * n + (c.toNat - 48)) 0

def plainDigit (c : Char) : Char :=
  match Text.digitValue? c with
  | some d => Nat.digitChar d
  | none => c

def ungroup? (cs : List Char) : Option (List Char) :=
  go ' ' cs
where
  go (before : Char) : List Char → Option (List Char)
    | [] => if before = '_' then none else some []
    | c :: cs =>
      if c = '_' then
        if isDigit before then go c cs else none
      else if before = '_' && !isDigit c then none
      else (go c cs).map (c :: ·)

def takeSign : List Char → Bool × List Char
  | '-' :: cs => (true, cs)
  | '+' :: cs => (false, cs)
  | cs => (false, cs)

def exponent? : List Char → Option Int
  | [] => some 0
  | c :: cs =>
    if c = 'e' || c = 'E' then
      let (negative, digits) := takeSign cs
      if !digits.isEmpty && digits.all isDigit then
        some (if negative then -(valueOf digits : Int) else valueOf digits)
      else
        none
    else
      none

def unsigned? (negative : Bool) (cs : List Char) : Option Numeral :=
  let whole := cs.takeWhile isDigit
  let (fraction, rest) :=
    match cs.dropWhile isDigit with
    | '.' :: cs => (cs.takeWhile isDigit, cs.dropWhile isDigit)
    | cs => ([], cs)
  if whole.isEmpty && fraction.isEmpty then none
  else
    (exponent? rest).map fun e =>
      ⟨negative, valueOf (whole ++ fraction), e - fraction.length⟩

def toBinary64 (n : Numeral) : Binary64 :=
  .ofDecimal n.negative n.coefficient n.exponent

def scaled (n : Numeral) (exponent : Int) : Int :=
  let units : Nat := n.coefficient * Nat.pow 10 (n.exponent - exponent).toNat
  if n.negative then -units else units

end Numeral

namespace Binary64

def ofText? (s : String) : Option Binary64 := do
  let (negative, cs) := Numeral.takeSign ((Text.trim s).toList.map Numeral.plainDigit)
  let word := String.ofList (cs.map Char.toLower)
  if word = "inf" || word = "infinity" then
    return .infinite negative
  else if word = "nan" then
    return .nan
  else
    return (← Numeral.unsigned? negative (← Numeral.ungroup? cs)).toBinary64

end Binary64

def longestInteger : Nat := 4300

def padsInteger (c : Char) : Bool :=
  -- The separators of ASCII are blank, but they do not pad an integer.
  Text.isBlank c && !(0x1c ≤ c.toNat && c.toNat ≤ 0x1f)

def integerOfText? (s : String) : Option Int := do
  let (negative, cs) := Numeral.takeSign ((Text.strip padsInteger s.toList).map Numeral.plainDigit)
  let digits ← Numeral.ungroup? cs
  if !digits.isEmpty && digits.all Numeral.isDigit && digits.length ≤ longestInteger then
    return if negative then -(Numeral.valueOf digits : Int) else Numeral.valueOf digits
  else
    none

end StageGate
