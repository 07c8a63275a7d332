import StageGate.Value.Magnitude

/-!
This module contains the equality of values by what they stand for: numbers are equal when they stand for
the same, whatever their kind, and the order of members is free.
-/

namespace StageGate.Value

def sameNumber (v w : Value) : Bool :=
  match v.magnitude?, w.magnitude? with
  | some x, some y => x.eq y
  | _, _ => false

def isNan : Value → Bool
  | .float .nan => true
  | _ => false

mutual

/--
Whether two values are equal as members of others. What is not a number is equal to nothing, but a member is equal to
itself, and whatever documents are read with shares the one object that is not a number.
-/
def sameIn (shared : Bool) : Value → Value → Bool
  | .null, .null => true
  | .text a, .text b => a == b
  | .list xs, .list ys => sameItems shared xs ys
  | .object fs, .object gs => fs.length == gs.length && sameFields shared fs gs
  | v, w => sameNumber v w || (shared && v.isNan && w.isNan)

def sameItems (shared : Bool) : List Value → List Value → Bool
  | [], [] => true
  | x :: xs, y :: ys => sameIn shared x y && sameItems shared xs ys
  | _, _ => false

def sameFields (shared : Bool) : List (String × Value) → Fields → Bool
  | [], _ => true
  | (k, v) :: fs, gs =>
    (match gs.get? k with
      | some w => sameIn shared v w
      | none => false) && sameFields shared fs gs

end

def same (v w : Value) : Bool :=
  sameIn false v w

theorem same_of_magnitude_left {v w : Value} (h : v.magnitude?.isSome) : v.same w = v.sameNumber w := by
  unfold same sameIn
  split <;> first | rw [Bool.false_and, Bool.false_and, Bool.or_false] | simp [magnitude?] at h

theorem same_of_magnitude_right {v w : Value} (h : w.magnitude?.isSome) : v.same w = v.sameNumber w := by
  unfold same sameIn
  split <;> first | rw [Bool.false_and, Bool.false_and, Bool.or_false] | simp [magnitude?] at h

def isKey : Value → Bool
  | .list _ | .object _ => false
  -- A signalling one cannot be looked up.
  | .decimal x => !x.isSignalling
  | _ => true

end StageGate.Value
