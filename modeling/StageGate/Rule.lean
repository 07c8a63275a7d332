import StageGate.Fault

/-!
This module contains the rules that automatic criteria are judged by: trees of conditions on the facts
about a lead, and the one written form that every rule has.
-/

namespace StageGate

inductive Domain where
  | entity
  | activity
  | time
  | relationship
  deriving DecidableEq

namespace Domain

def name : Domain → String
  | .entity => "entity-field"
  | .activity => "activity-metric"
  | .time => "time-metric"
  | .relationship => "relationship-metric"

def ofName? (s : String) : Option Domain :=
  if s = "entity-field" || s = "entity_field" || s = "lead_data" then some .entity
  else if s = "activity-metric" || s = "activity_metric" || s = "activity" then some .activity
  else if s = "time-metric" || s = "time_metric" || s = "time" then some .time
  else if s = "relationship-metric" || s = "relationship_metric" || s = "relationship" then
    some .relationship
  else none

@[simp]
theorem ofName?_name (d : Domain) : ofName? d.name = some d := by
  cases d <;> decide

end Domain

inductive Operator where
  | greater
  | less
  | atLeast
  | atMost
  | equal
  | unequal
  | contains
  | present
  | absent
  deriving DecidableEq

namespace Operator

def name : Operator → String
  | .greater => ">"
  | .less => "<"
  | .atLeast => ">="
  | .atMost => "<="
  | .equal => "=="
  | .unequal => "!="
  | .contains => "contains"
  | .present => "exists"
  | .absent => "not-exists"

def ofName? (s : String) : Option Operator :=
  if s = ">" then some .greater
  else if s = "<" then some .less
  else if s = ">=" then some .atLeast
  else if s = "<=" then some .atMost
  else if s = "==" || s = "=" then some .equal
  else if s = "!=" then some .unequal
  else if s = "contains" then some .contains
  else if s = "exists" then some .present
  else if s = "not-exists" || s = "not_exists" then some .absent
  else none

@[simp]
theorem ofName?_name (op : Operator) : ofName? op.name = some op := by
  cases op <;> decide

def takesValue : Operator → Bool
  | .present | .absent => false
  | _ => true

end Operator

inductive Logic where
  | all
  | any
  deriving DecidableEq

namespace Logic

def name : Logic → String
  | .all => "AND"
  | .any => "OR"

def ofName? (s : String) : Option Logic :=
  let s := s.toUpper
  if s = "AND" then some .all
  else if s = "OR" then some .any
  else none

@[simp]
theorem ofName?_name (logic : Logic) : ofName? logic.name = some logic := by
  cases logic <;> decide +kernel

end Logic

structure Leaf where
  domain : Domain
  field : String
  operator : Operator
  value : Value
  deriving DecidableEq

inductive Rule where
  | leaf (leaf : Leaf)
  | group (logic : Logic) (children : List Rule)

def Leaf.toValue (l : Leaf) : Value :=
  .object <|
    [("domain", .text l.domain.name), ("field", .text l.field), ("operator", .text l.operator.name)]
      ++ if l.operator.takesValue then [("value", l.value)] else []

namespace Rule

def groupForm (logic : Value) (children : List Value) : Value :=
  .object [("logic", logic), ("children", .list children)]

mutual

def toValue : Rule → Value
  | .leaf l => l.toValue
  | .group logic children => groupForm (.text logic.name) (toValues children)

def toValues : List Rule → List Value
  | [] => []
  | r :: rs => toValue r :: toValues rs

end

end Rule

end StageGate
