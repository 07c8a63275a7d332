import StageGate.Rule
import StageGate.Rule.Field
import StageGate.Rule.Coercion

/-!
This module contains the judgement of a rule on facts. Of a group the children are judged in order, up to
the first that decides it.
-/

namespace StageGate

structure Facts where
  snapshot : Value
  context : Value

namespace Leaf

def source (facts : Facts) : Domain → Value
  | .entity => facts.snapshot.orElse (.object [])
  | _ => facts.context.orElse (.object [])

def compare (op : Operator) (x y : Binary64) : Bool :=
  match op with
  | .greater => y.lt x
  | .less => x.lt y
  | .atLeast => y.le x
  | .atMost => x.le y
  | _ => false

def holdsOrdered (op : Operator) (actual value : Value) : Except Fault Bool := do
  match ← actual.toNumber, ← value.toNumber with
  | some x, some y => return compare op x y
  | _, _ => return false

def holdsOf (op : Operator) (actual value : Value) : Except Fault Bool :=
  match op with
  | .equal => actual.looseEquals value
  | .unequal => (actual.looseEquals value).map (!·)
  | .contains =>
    if actual.isNull || value.isNull then .ok false else actual.containsText value
  | op => holdsOrdered op actual value

def holdsOn (l : Leaf) (actual : Option Value) : Except Fault Bool :=
  match l.operator with
  | .present => .ok (Value.exists? actual)
  | .absent => .ok (!Value.exists? actual)
  | op =>
    match actual with
    | none => .ok false
    | some v => holdsOf op v l.value

def holds (facts : Facts) (l : Leaf) : Except Fault Bool := do
  l.holdsOn (← (source facts l.domain).resolve? l.field)

end Leaf

namespace Rule

mutual

def holds (facts : Facts) : Rule → Except Fault Bool
  | .leaf l => l.holds facts
  | .group .all children => allHold facts children
  | .group .any children => anyHolds facts children

def allHold (facts : Facts) : List Rule → Except Fault Bool
  | [] => .ok true
  | r :: rs =>
    match holds facts r with
    | .ok true => allHold facts rs
    | result => result

def anyHolds (facts : Facts) : List Rule → Except Fault Bool
  | [] => .ok false
  | r :: rs =>
    match holds facts r with
    | .ok false => anyHolds facts rs
    | result => result

end

end Rule

end StageGate
