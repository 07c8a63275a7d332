import StageGate.Fault
import StageGate.Text.Blank
import StageGate.Text.Case
import StageGate.Text.Split

/-!
This module contains the readings of a value as a number, as a truth value and as a text, and the loose
equality that tries them in turn.
-/

namespace StageGate.Value

def finite? (x : Binary64) : Option Binary64 :=
  if x.isFinite then some x else none

/--
The finite number a value can be read as. An integer beyond the numbers is an error, and so is what signals
that it is no number.
-/
def toNumber : Value → Except Fault (Option Binary64)
  | .bool b => .ok (some (.ofInt (if b then 1 else 0)))
  | .int n => orElse (finite? (Binary64.ofInt n)) .tooLarge
  | .float x => .ok (finite? x)
  | .decimal x => (orElse x.toBinary64? .notAnInteger).map (·.bind finite?)
  | .text s => .ok ((Binary64.ofText? s).bind finite?)
  | _ => .ok none
where
  orElse (x : Option Binary64) (b : Breakdown) : Except Fault (Option Binary64) :=
    match x with
    | some x => .ok (some x)
    | none => .error (.broken b)

def toBool? : Value → Option Bool
  | .bool b => some b
  | .text s =>
    let word := (Text.trim s).toLower
    if word = "true" then some true
    else if word = "false" then some false
    else none
  | _ => none

def comparedText : Value → String
  | .bool b => if b then "true" else "false"
  | .float x =>
    if x.isWhole then
      match x.truncate? with
      | some n => toString n
      | none => x.text
    else
      x.text
  | v => v.toText

def written (v : Value) : Except Fault String :=
  if v.isWritable then .ok v.comparedText else .error (.broken .notAnInteger)

def exists? : Option Value → Bool
  | none | some .null => false
  | some (.text s) => s != ""
  | some _ => true

def equalBools? (v w : Value) : Option Bool :=
  match v, w with
  | .bool _, _ | _, .bool _ =>
    match v.toBool?, w.toBool? with
    | some a, some b => some (a == b)
    | _, _ => none
  | _, _ => none

def equalNumbersOrTexts (v w : Value) : Except Fault Bool := do
  match ← v.toNumber, ← w.toNumber with
  | some x, some y => return x.eq y
  | _, _ => return (← v.written) == (← w.written)

def looseEquals (v w : Value) : Except Fault Bool :=
  if v.isNull || w.isNull then .ok (v.isNull && w.isNull)
  else
    -- Truth values come before numbers, and numbers before texts.
    match equalBools? v w with
    | some b => .ok b
    | none => equalNumbersOrTexts v w

def containsText (whole part : Value) : Except Fault Bool := do
  let part ← part.written
  let whole ← whole.written
  return Text.occursIn (Text.lower part).toList (Text.lower whole).toList

end StageGate.Value
