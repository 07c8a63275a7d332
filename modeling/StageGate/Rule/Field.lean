import StageGate.Fault
import StageGate.Text.Split

/-!
This module contains the look-up of a field among facts. A name is first looked up as it is; a dotted name
that is not found so leads through nested objects.
-/

namespace StageGate.Value

/--
The member of facts that a name stands for as it is. Facts are an object; a list or a text may hold the
name as well, but then it has no members to look at.
-/
def member? (facts : Value) (name : String) : Except Fault (Option Value) :=
  match facts with
  | .object fields => .ok (Fields.get? fields name)
  | .list items => if items.any (· = .text name) then .error (.broken .wrongKind) else .ok none
  | .text s =>
    if Text.occursIn name.toList s.toList then .error (.broken .wrongKind) else .ok none
  | _ => .error (.broken .wrongKind)

def walk : List String → Value → Option Value
  | [], v => some v
  | part :: parts, .object fields => (Fields.get? fields part).bind (walk parts)
  | _ :: _, _ => none

def resolve? (facts : Value) (name : String) : Except Fault (Option Value) := do
  match ← facts.member? name with
  | some v => return some v
  | none =>
    if name.toList.contains '.' then
      return walk ((Text.split '.' name.toList).map String.ofList) facts
    else
      return none

theorem resolve?_object (fields : Fields) (name : String) :
    (object fields).resolve? name = .ok ((fields.get? name).or
      (if '.' ∈ name.toList then walk ((Text.split '.' name.toList).map String.ofList) (.object fields) else none)) := by
  have hmember : (object fields).member? name = .ok (fields.get? name) := rfl
  unfold resolve?
  rw [hmember]
  cases fields.get? name with
  | some v => rfl
  | none =>
    simp only [bind, Except.bind, List.contains_iff_mem, Option.none_or]
    split <;> rfl

theorem resolve?_of_get? {fields : Fields} {name : String} {v : Value} (h : fields.get? name = some v) :
    (object fields).resolve? name = .ok (some v) := by
  rw [resolve?_object, h, Option.some_or]

end StageGate.Value
