import StageGate.Fault
import StageGate.Value.Equality

/-!
This module contains the order of values: numbers of all kinds are in one order, texts are in that of their
characters, and lists are in that of their first items that differ. Other values have no order.
-/

namespace StageGate.Value

def isDecimal : Value → Bool
  | .decimal _ => true
  | _ => false

def magnitudes (v w : Value) : Except Fault (Magnitude × Magnitude) :=
  match v.magnitude?, w.magnitude? with
  | some x, some y =>
    if (v.isDecimal || w.isDecimal) && (x = .nothing || y = .nothing) then .error (.broken .noNumber)
    else .ok (x, y)
  | _, _ => .error (.broken .wrongKind)

def atMost (v w : Value) : Except Fault Bool :=
  match v, w with
  | .int m, .int n => .ok (m ≤ n)
  | v, w => (magnitudes v w).map fun (x, y) => x.le y

mutual

def lt : Value → Value → Except Fault Bool
  | .int m, .int n => .ok (m < n)
  | .text s, .text t => .ok (s < t)
  | .list xs, .list ys => ltItems xs ys
  | v, w => (magnitudes v w).map fun (x, y) => x.lt y

def ltItems : List Value → List Value → Except Fault Bool
  | [], ys => .ok (!ys.isEmpty)
  | _ :: _, [] => .ok false
  | x :: xs, y :: ys => if same x y then ltItems xs ys else lt x y

end

@[simp]
theorem lt_int (m n : Int) : lt (.int m) (.int n) = .ok (decide (m < n)) := by
  simp [lt]

@[simp]
theorem atMost_int (m n : Int) : atMost (.int m) (.int n) = .ok (decide (m ≤ n)) := by
  simp [atMost]

def insertInOrder (v : Value) : List Value → Except Fault (List Value)
  | [] => .ok [v]
  | w :: ws => do
    if ← lt v w then return v :: w :: ws
    return w :: (← insertInOrder v ws)

def sort (vs : List Value) : Except Fault (List Value) :=
  vs.foldlM (fun sorted v => insertInOrder v sorted) []

end StageGate.Value
