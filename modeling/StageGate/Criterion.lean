import StageGate.Rule

/-!
This module contains the criteria that gate a stage, in the form in which they are judged: what a
criterion of each kind asks for, and whether an entry may leave the stage without it.
-/

namespace StageGate

inductive Kind where
  | checklist
  | automatic
  | manual
  | conditional
  deriving DecidableEq

namespace Kind

def all : List Kind := [.checklist, .automatic, .manual, .conditional]

def name : Kind → String
  | .checklist => "checklist"
  | .automatic => "automatic"
  | .manual => "manual"
  | .conditional => "conditional"

def ofName? (s : String) : Option Kind :=
  all.find? (·.name = s)

@[simp]
theorem ofName?_name (k : Kind) : ofName? k.name = some k := by
  cases k <;> decide

def hasRule : Kind → Bool
  | .automatic | .conditional => true
  | _ => false

end Kind

inductive Demand where
  | done
  | approved
  | holds (rule : Rule)

structure Check where
  id : Value
  name : Value
  kind : Kind
  mandatory : Value
  demand : Demand

namespace Check

def ofParts (id name : Value) (kind : Kind) (mandatory : Value) (rule : Option Rule) :
    Except Fault Check :=
  match kind, rule with
  | .checklist, _ => .ok ⟨id, name, kind, mandatory, .done⟩
  | .manual, _ => .ok ⟨id, name, kind, mandatory, .approved⟩
  | _, some rule => .ok ⟨id, name, kind, mandatory, .holds rule⟩
  | _, none =>
    .error (.refused (.misconfigured (kind.name ++ " criterion '" ++ name.toText ++ "' has no rule") "" []))

def rule? (c : Check) : Option Rule :=
  match c.demand with
  | .holds rule => some rule
  | _ => none

def toValue (c : Check) : Value :=
  .object [("id", c.id), ("name", c.name), ("kind", .text c.kind.name),
    ("mandatory", c.mandatory), ("rule", .ofOption Rule.toValue c.rule?)]

end Check

end StageGate
