import StageGate.Value.Equality
import StageGate.Fault

/-!
This module contains the values that a list can stand for, and the members that an object, or a list of
pairs, can stand for. The names of pairs may be any values that can be looked up, of which equal ones are
one name.
-/

namespace StageGate

abbrev Members := List (Value × Value)

namespace Members

def set (members : Members) (name value : Value) : Members :=
  match members with
  | [] => [(name, value)]
  | (n, v) :: rest => if n.same name then (n, value) :: rest else (n, v) :: set rest name value

def toFields (name? : Value → Option String) (members : Members) : Fields :=
  Fields.merge [] (members.filterMap fun (n, v) => (name? n).map (·, v))

end Members

namespace Value

def elements : Value → Except Fault (List Value)
  | .list items => .ok items
  | .text s => .ok (s.toList.map fun c => .text (String.singleton c))
  | .object fields => .ok (fields.map fun f => .text f.1)
  | _ => .error (.broken .wrongKind)

def items (v : Value) : Except Fault (List Value) :=
  if v.isTrue then v.elements else .ok []

def asPair (v : Value) : Except Fault (Value × Value) := do
  match ← v.elements with
  | [name, value] => if name.isKey then return (name, value) else throw (.broken .wrongKind)
  | _ => throw (.broken .notPaired)

def asMembers (v : Value) : Except Fault Members :=
  if !v.isTrue then .ok []
  else
    match v with
    | .object fields => .ok (fields.map fun (k, w) => (.text k, w))
    -- Members may be given as a list of pairs.
    | v => do (← v.elements).foldlM addPair []
where
  addPair (members : Members) (item : Value) : Except Fault Members := do
    let (name, value) ← item.asPair
    return members.set name value

def shownName? (v : Value) : Option String :=
  some v.toText

end Value

end StageGate
