import StageGate.Time.Instant
import StageGate.Value.Arithmetic

/-!
This module contains spans of days, which may have fractions, as microseconds.
-/

namespace StageGate.Instant

def nearestInt (x : Binary64) : Int :=
  let n : Nat := roundDiv x.units.natAbs Binary64.one
  if x.units < 0 then -n else n

def microsOfFraction (fraction : Binary64) : Int :=
  nearestInt (fraction.mul (.ofInt microsPerDay))

def microsOfDays (days : Value) : Except Fault Int :=
  match days with
  | .float .nan => .error (.broken .notAnInteger)
  | .float x =>
    match x.truncate? with
    | none => .error (.broken .tooLarge)
    -- Whole days are exact, and only the fraction is rounded.
    | some whole => .ok (whole * microsPerDay + microsOfFraction (x.sub (.ofInt whole)))
  | v =>
    match v.whole? with
    | some n => .ok (n * microsPerDay)
    | none => .error (.broken .wrongKind)

def addDays (t : Instant) (days : Value) : Except Fault Instant := do
  match t.add? (← microsOfDays days) with
  | some t => return t
  | none => throw (.broken .tooLarge)

end StageGate.Instant
