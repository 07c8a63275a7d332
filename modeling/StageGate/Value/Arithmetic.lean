import StageGate.Value.Order

/-!
This module contains the arithmetic of values. Integers are exact, a float makes the result a float, and
decimal numbers keep their places, but do not mix with floats.
-/

namespace StageGate.Value

def whole? : Value → Option Int
  | .int n => some n
  | .bool b => some (if b then 1 else 0)
  | _ => none

def toFloat : Value → Except Fault Binary64
  | .float x => .ok x
  | .decimal x => orElse x.toBinary64? .notAnInteger
  | v =>
    match v.whole? with
    | none => .error (.broken .wrongKind)
    | some n => orElse (Binary64.ofInt n).bounded? .tooLarge
where
  orElse (x : Option Binary64) (b : Breakdown) : Except Fault Binary64 :=
    match x with
    | some x => .ok x
    | none => .error (.broken b)

def subDecimal (x y : Decimal) : Except Fault Value :=
  match x.sub? y with
  | some z => .ok (.decimal z)
  | none => .error (.broken .noNumber)

def sub (v w : Value) : Except Fault Value :=
  match v, w with
  | .int m, .int n => .ok (.int (m - n))
  | .decimal x, .decimal y => subDecimal x y
  | .decimal x, w =>
    match w.whole? with
    | some n => subDecimal x (.ofInt n)
    | none => .error (.broken .wrongKind)
  | v, .decimal y =>
    match v.whole? with
    | some n => subDecimal (.ofInt n) y
    | none => .error (.broken .wrongKind)
  | v, w =>
    match v.whole?, w.whole? with
    | some m, some n => .ok (.int (m - n))
    | _, _ => do return .float ((← v.toFloat).sub (← w.toFloat))

@[simp]
theorem sub_int (m n : Int) : sub (.int m) (.int n) = .ok (.int (m - n)) :=
  rfl

def succ (v : Value) : Except Fault Value :=
  v.sub (.int (-1))

def positivePart (v : Value) : Except Fault Value := do
  return if ← lt (.int 0) v then v else .int 0

theorem positivePart_int (n : Int) : positivePart (.int n) = .ok (.int (max 0 n)) := by
  by_cases h : 0 < n
  . simp [positivePart, h, bind, Except.bind, pure, Except.pure, Int.max_eq_right (Int.le_of_lt h)]
  . simp [positivePart, h, bind, Except.bind, pure, Except.pure, Int.max_eq_left (Int.not_lt.1 h)]

end StageGate.Value
