import StageGate.Value
import StageGate.Text.Quoted

/-!
This module contains the texts of values: as they are shown inside a message, and as plain texts. Integers with
too many digits have none.
-/

namespace StageGate.Value

mutual

def shown : Value → String
  | .null => "None"
  | .bool b => if b then "True" else "False"
  | .int n => toString n
  | .float x => x.text
  | .decimal x => "Decimal(" ++ Text.quoted x.text ++ ")"
  | .text s => Text.quoted s
  | .list items => "[" ++ ", ".intercalate (shownItems items) ++ "]"
  | .object fields => "\x7b" ++ ", ".intercalate (shownFields fields) ++ "\x7d"

def shownItems : List Value → List String
  | [] => []
  | v :: vs => shown v :: shownItems vs

def shownFields : List (String × Value) → List String
  | [] => []
  | (k, v) :: fs => (Text.quoted k ++ ": " ++ shown v) :: shownFields fs

end

def toText : Value → String
  | .text s => s
  | .decimal x => x.text
  | v => v.shown

def generalText : Value → String
  | .bool b => if b then "1" else "0"
  | .int n => (Binary64.ofInt n).generalText
  | .float x => x.generalText
  | .decimal x => x.generalText
  | v => v.toText

mutual

def integersBelow (limit : Nat) : Value → Bool
  | .int n => n.natAbs < limit
  | .list items => itemsBelow limit items
  | .object fields => fieldsBelow limit fields
  | _ => true

def itemsBelow (limit : Nat) : List Value → Bool
  | [] => true
  | v :: vs => integersBelow limit v && itemsBelow limit vs

def fieldsBelow (limit : Nat) : List (String × Value) → Bool
  | [] => true
  | (_, v) :: fs => integersBelow limit v && fieldsBelow limit fs

end

@[irreducible]
def digitsLimit : Nat := Nat.pow 10 longestInteger

/-- Whether no integer in a value has more digits than are written. -/
def isWritable (v : Value) : Bool :=
  v.integersBelow digitsLimit

end StageGate.Value
