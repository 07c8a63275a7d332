import StageGate.Rule
import StageGate.Text.Blank
import StageGate.Value.Equality

/-!
This module contains the reader of rules. It takes several spellings of each word, and reports the first
fault of a rule with the path that leads to it.
-/

namespace StageGate.Rule

def maxDepth : Nat := 32

def fault {α : Type} (path reason : String) : Except Fault α :=
  .error (.refused (.misconfigured reason path []))

def isGroup (fields : Fields) : Bool :=
  fields.has "children" || fields.has "rules" || fields.get? "type" == some (.text "composite")

def unknownName {α : Type} (key path : String) (word : Value) : Except Fault α := do
  if word.isKey then fault (path ++ "." ++ key) ("unknown " ++ key ++ " " ++ (← word.printed))
  else .error (.broken .wrongKind)

def readName {α : Type} (key path : String) (ofName? : String → Option α) (word : Value) :
    Except Fault α :=
  if !word.isTrue then fault (path ++ "." ++ key) ("leaf is missing '" ++ key ++ "'")
  else
    match word with
    | .text s =>
      match ofName? s with
      | some a => .ok a
      | none => fault (path ++ "." ++ key) ("unknown " ++ key ++ " " ++ Text.quoted s)
    | v => unknownName key path v

def isScalar : Value → Bool
  | .null | .bool _ | .int _ | .float _ | .text _ => true
  | _ => false

def readField (path : String) (fields : Fields) : Except Fault String :=
  match fields.get? "field" with
  | some (.text s) =>
    let s := Text.trim s
    if s = "" then fault (path ++ ".field") "leaf is missing 'field'" else .ok s
  | _ => fault (path ++ ".field") "leaf is missing 'field'"

def readOperand (path : String) (op : Operator) (fields : Fields) : Except Fault Value :=
  if op.takesValue && !fields.has "value" then
    fault (path ++ ".value") ("operator " ++ Text.quoted op.name ++ " requires a 'value'")
  else
    let value := fields.getD "value" .null
    if isScalar value then .ok value
    else fault (path ++ ".value") "value must be a scalar"

def readLeaf (path : String) (fields : Fields) : Except Fault Leaf := do
  let word := fields.getD "domain" (fields.getD "type" .null)
  let domain ← readName "domain" path Domain.ofName? word
  let field ← readField path fields
  let operator ← readName "operator" path Operator.ofName? (fields.getD "operator" .null)
  let value ← readOperand path operator fields
  return ⟨domain, field, operator, value⟩

def childPath (path : String) (i : Nat) : String :=
  path ++ ".children[" ++ toString i ++ "]"

def readChildren (readChild : String → Value → Except Fault Rule) (path : String) (i : Nat) :
    List Value → Except Fault (List Rule)
  | [] => .ok []
  | v :: vs => do
    let r ← readChild (childPath path i) v
    let rs ← readChildren readChild path (i + 1) vs
    return r :: rs

def noLogic {α : Type} (path : String) : Except Fault α :=
  fault (path ++ ".logic") "logic must be one of ['AND', 'OR']"

def readLogic (path : String) (fields : Fields) : Except Fault Logic :=
  match fields.getD "logic" .null with
  | .text s =>
    match Logic.ofName? s with
    | some logic => .ok logic
    | none => noLogic path
  -- The texts are compared, and no other value is written like one of the two.
  | v => if v.isWritable then noLogic path else .error (.broken .notAnInteger)

def noChildren {α : Type} (path : String) : Except Fault α :=
  fault path "composite rule must have at least one child"

def readGroup (readChild : String → Value → Except Fault Rule) (path : String) (fields : Fields) :
    Except Fault Rule := do
  let logic ← readLogic path fields
  let key := if fields.has "children" then "children" else "rules"
  match fields.getD key .null with
  | .list [] => noChildren (path ++ "." ++ key)
  | .list children => return .group logic (← readChildren readChild path 0 children)
  | _ => fault (path ++ "." ++ key) "children must be a list"

def readNode (readChild : String → Value → Except Fault Rule) (path : String) (fields : Fields) :
    Except Fault Rule :=
  if isGroup fields then readGroup readChild path fields
  else (readLeaf path fields).map .leaf

def readWithin : Nat → String → Value → Except Fault Rule
  | 0, path, .object _ =>
    fault path ("rule tree deeper than " ++ toString maxDepth ++ " levels")
  | levels + 1, path, .object fields => readNode (readWithin levels) path fields
  | _, path, _ => fault path "rule node must be an object"

def read (path : String) (v : Value) : Except Fault Rule :=
  readWithin (maxDepth + 1) path v

end StageGate.Rule
