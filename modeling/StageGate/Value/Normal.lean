import StageGate.Value

/-!
This module contains the normal form of values, in which the order of members no longer shows.
-/

namespace StageGate.Value

def insertField (key : String) (v : Value) : Fields → Fields
  | [] => [(key, v)]
  | (k, w) :: fs => if key < k then (key, v) :: (k, w) :: fs else (k, w) :: insertField key v fs

mutual

def normal : Value → Value
  | .decimal x => .text x.text
  | .list items => .list (normalItems items)
  | .object fields => .object (normalFields fields)
  | v => v

def normalItems : List Value → List Value
  | [] => []
  | v :: vs => normal v :: normalItems vs

def normalFields : List (String × Value) → Fields
  | [] => []
  | (k, v) :: fs => insertField k (normal v) (normalFields fs)

end

end StageGate.Value
