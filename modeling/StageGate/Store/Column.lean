import StageGate.Fault
import StageGate.Store.Real
import StageGate.Text.Surrogate
import StageGate.Time.Stamp
import StageGate.Value.Arithmetic

/-!
This module contains the columns of the store: what becomes of a value that is written into a column of a
given kind. A column may have an affinity to a kind of value, and other values are turned into that kind
where nothing is lost.
-/

namespace StageGate.Column

/-! ## Texts and numbers -/

def wordLimit : Nat := Nat.pow 2 63

def checkInt (n : Int) : Except Fault Unit :=
  if -wordLimit ≤ n ∧ n < wordLimit then .ok () else .error (.broken .tooLarge)

def checkText (s : String) : Except Fault Unit :=
  if Text.isEncodable s then .ok () else .error (.broken .unencodable)

def text : Value → Except Fault (Option String)
  | .null => .ok none
  | .text s => do
    checkText s
    return some s
  | .bool b => .ok (some (if b then "1" else "0"))
  | .int n => do
    checkInt n
    return some (toString n)
  | .float .nan => .ok none
  | .float x => .ok (some x.columnText)
  | .list _ | .object _ | .decimal _ => .error (.broken .unstorable)

def renew (kept : Option String) (v : Value) : Except Fault (Option String) :=
  if v.isNull then .ok kept else text v

def numberOf (x : Binary64) : Value :=
  match x with
  | .nan => .null
  | x =>
    match x.truncate? with
    -- The number column keeps whole numbers as integers if they fit.
    | some n => if x.isWhole && n.natAbs < wordLimit then .int n else .float x
    | none => .float x

def isPadding (c : Char) : Bool :=
  c = ' ' || (9 ≤ c.toNat && c.toNat ≤ 13)

def numberOfText (s : String) : Value :=
  let cs := Text.strip isPadding s.toList
  let (negative, digits) := Numeral.takeSign cs
  match Numeral.unsigned? negative digits with
  | none => .text s
  | some numeral =>
    let n : Int := if negative then -numeral.coefficient else numeral.coefficient
    if digits.all Numeral.isDigit && -wordLimit ≤ n && n < wordLimit then .int n
    else numberOf numeral.toColumn

def number : Value → Except Fault Value
  | .null => .ok .null
  | .bool b => .ok (.int (if b then 1 else 0))
  | .int n => do
    checkInt n
    return .int n
  | .float x => .ok (numberOf x)
  | .text s => do
    checkText s
    return numberOfText s
  | .list _ | .object _ | .decimal _ => .error (.broken .unstorable)

def rank : Value → Nat
  | .null => 0
  | .text _ => 2
  | _ => 1

def atMost (v w : Value) : Bool :=
  match v, w with
  | .int m, .int n => m ≤ n
  | .text s, .text t => s ≤ t
  | v, w =>
    match v.magnitude?, w.magnitude? with
    | some x, some y => x.le y
    -- Numbers come first, and texts behind them.
    | _, _ => rank v ≤ rank w

/-! ## Other columns -/

def flag? : Value → Except Fault (Option Bool)
  | .null => .ok none
  | .bool b => .ok (some b)
  | v =>
    if v.same (.int 0) then .ok (some false)
    else if v.same (.int 1) then .ok (some true)
    else .error (.broken .unprepared)

mutual

def isDocument : Value → Bool
  | .decimal _ => false
  | .list items => areDocuments items
  | .object fields => haveDocuments fields
  | _ => true

def areDocuments : List Value → Bool
  | [] => true
  | v :: vs => isDocument v && areDocuments vs

def haveDocuments : List (String × Value) → Bool
  | [] => true
  | (_, v) :: fs => isDocument v && haveDocuments fs

end

/-- A document is written as a whole before anything is stored. -/
def checkDocument (v : Value) : Except Fault Unit :=
  if isDocument v && v.isWritable then .ok () else .error (.broken .unprepared)

def document : Value → Value
  | .int n => numberOfText (toString n)
  | .float x => if x.isFinite then numberOfText x.text else .float x
  | v => v

def time? : Value → Except Fault (Option Instant)
  | .null => .ok none
  | .text s =>
    match Stamp.ofText? s with
    | some stamp => .ok (some stamp.reading)
    | none => .error (.broken .unprepared)
  | _ => .error (.broken .unprepared)

end StageGate.Column
