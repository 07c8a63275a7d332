import StageGate.Numeral
import StageGate.Binary64.Text

/-!
This module contains decimal numbers that keep the places they were written with.
-/

namespace StageGate

inductive Decimal where
  | finite (value : Numeral)
  | infinite (negative : Bool)
  -- A signalling one can be shown, but not be used.
  | nan (negative signalling : Bool) (payload : Nat)
  deriving DecidableEq

namespace Decimal

def payload? (cs : List Char) : Option Nat :=
  if cs.all Numeral.isDigit then some (Numeral.valueOf cs) else none

def ofWord? (negative : Bool) (word : List Char) : Option Decimal :=
  match word with
  | ['i', 'n', 'f'] | ['i', 'n', 'f', 'i', 'n', 'i', 't', 'y'] => some (.infinite negative)
  | 'n' :: 'a' :: 'n' :: digits => (payload? digits).map (.nan negative false)
  | 's' :: 'n' :: 'a' :: 'n' :: digits => (payload? digits).map (.nan negative true)
  | _ => none

def ofText? (s : String) : Option Decimal :=
  let cs := (Text.trim s).toList.map Numeral.plainDigit
  let (negative, cs) := Numeral.takeSign (cs.filter (· ≠ '_'))
  match ofWord? negative (cs.map Char.toLower) with
  | some x => some x
  | none => (Numeral.unsigned? negative cs).map .finite

def text : Decimal → String
  | .infinite negative => String.ofList (Binary64.signText negative ++ "Infinity".toList)
  | .nan negative signalling payload =>
    String.ofList (Binary64.signText negative ++ (if signalling then ['s'] else []) ++ "NaN".toList ++
      if payload = 0 then [] else payload.repr.toList)
  | .finite ⟨negative, coefficient, exponent⟩ =>
    let digits := coefficient.repr.toList
    let point := digits.length + exponent
    let body :=
      if exponent ≤ 0 && -6 < point then
        if exponent = 0 then digits
        else if point ≤ 0 then
          '0' :: '.' :: (List.replicate (-point).toNat '0' ++ digits)
        else digits.take point.toNat ++ '.' :: digits.drop point.toNat
      else
        let e := point - 1
        digits.take 1 ++ (if digits.length = 1 then [] else '.' :: digits.drop 1) ++
          'E' :: (if e < 0 then '-' else '+') :: e.natAbs.repr.toList
    String.ofList (Binary64.signText negative ++ body)

def fixedText (places : Nat) : Decimal → String
  | .finite ⟨negative, coefficient, exponent⟩ =>
    let shift := exponent + places
    let units := roundDiv (coefficient * Nat.pow 10 shift.toNat) (Nat.pow 10 (-shift).toNat)
    String.ofList (Binary64.signText negative ++ fixedDigits places units)
  | x => x.text

def generalText (x : Decimal) : String :=
  match x with
  | .finite _ => String.ofList (x.text.toList.map fun c => if c = 'E' then 'e' else c)
  | x => x.text

def toBinary64? : Decimal → Option Binary64
  | .finite value => some value.toBinary64
  | .infinite negative => some (.infinite negative)
  | .nan _ signalling _ => if signalling then none else some .nan

def isSignalling : Decimal → Bool
  | .nan _ signalling _ => signalling
  | _ => false

def isZero : Decimal → Bool
  | .finite value => value.coefficient == 0
  | _ => false

def truncate? : Decimal → Option Int
  | .finite ⟨negative, coefficient, exponent⟩ =>
    let n : Nat := coefficient * Nat.pow 10 exponent.toNat / Nat.pow 10 (-exponent).toNat
    some (if negative then -n else n)
  | _ => none

def ofInt (n : Int) : Decimal :=
  .finite ⟨n < 0, n.natAbs, 0⟩

def precision : Nat := 28

def round (n : Numeral) : Numeral :=
  let spare := Binary64.digitCount n.coefficient - precision
  let kept := roundDiv n.coefficient (Nat.pow 10 spare)
  if spare = 0 then n
  else if kept = Nat.pow 10 precision then ⟨n.negative, Nat.pow 10 (precision - 1), n.exponent + spare + 1⟩
  else ⟨n.negative, kept, n.exponent + spare⟩

def difference (x y : Numeral) : Numeral :=
  let exponent := min x.exponent y.exponent
  let n := x.scaled exponent - y.scaled exponent
  round ⟨if n = 0 then x.negative && !y.negative else n < 0, n.natAbs, exponent⟩

def sub? : Decimal → Decimal → Option Decimal
  | .finite x, .finite y => some (.finite (difference x y))
  | .infinite a, .infinite b => if a = b then none else some (.infinite a)
  | .infinite a, .finite _ => some (.infinite a)
  | .finite _, .infinite b => some (.infinite (!b))
  | _, _ => none

end Decimal

end StageGate
