import StageGate.Fault

/-!
This module contains the turning of values into integers.
-/

namespace StageGate.Value

def toInteger : Value → Except Fault Int
  | .int n => .ok n
  | .bool b => .ok (if b then 1 else 0)
  | .float .nan | .decimal (.nan ..) => .error (.broken .notAnInteger)
  | .float x => orTooLarge x.truncate?
  | .decimal x => orTooLarge x.truncate?
  | .text s =>
    match integerOfText? s with
    | some n => .ok n
    | none => .error (.broken .notAnInteger)
  | _ => .error (.broken .wrongKind)
where
  orTooLarge : Option Int → Except Fault Int
    | some n => .ok n
    | none => .error (.broken .tooLarge)

end StageGate.Value
