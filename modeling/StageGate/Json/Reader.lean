import StageGate.Text.Surrogate
import StageGate.Value

/-!
This module contains the reader of JSON texts. Besides the grammar of the standard it takes the bare
words for what is not a finite number; of members with one key the last counts.
-/

namespace StageGate.Json

inductive Failure where
  | malformed
  | integerTooLong
  | tooDeep (isObject : Bool)
  deriving DecidableEq

def isSpace (c : Char) : Bool :=
  c = ' ' || c = '\t' || c = '\n' || c = '\r'

def skipSpace (cs : List Char) : List Char :=
  cs.dropWhile isSpace

def codeUnit? (a b c d : Char) : Option Nat :=
  [a, b, c, d].foldlM (fun n c => (Text.hexValue? c).map (16 * n + ·)) 0

def escapeOf? (c : Char) : Option Char :=
  if c = '"' || c = '\\' || c = '/' then some c
  else if c = 'n' then some '\n'
  else if c = 'r' then some '\r'
  else if c = 't' then some '\t'
  else if c = 'b' then some (Char.ofNat 8)
  else if c = 'f' then some (Char.ofNat 12)
  else none

def readText (read : List Char) : List Char → Except Failure (String × List Char)
  | [] => .error .malformed
  -- The characters so far are held last first.
  | '"' :: cs => .ok (String.ofList read.reverse, cs)
  | '\\' :: 'u' :: a :: b :: c :: d :: '\\' :: 'u' :: e :: f :: g :: h :: cs =>
    match codeUnit? a b c d, codeUnit? e f g h with
    | some m, some n =>
      if Text.isHighSurrogate m && Text.isLowSurrogate n then
        readText (Char.ofNat (Text.pairedSurrogates m n) :: read) cs
      else
        readText (Text.ofCodePoint m :: read) ('\\' :: 'u' :: e :: f :: g :: h :: cs)
    | _, _ => .error .malformed
  | '\\' :: 'u' :: a :: b :: c :: d :: cs =>
    match codeUnit? a b c d with
    | some m => readText (Text.ofCodePoint m :: read) cs
    | none => .error .malformed
  | '\\' :: c :: cs =>
    match escapeOf? c with
    | some c => readText (c :: read) cs
    | none => .error .malformed
  | c :: cs =>
    if c = '\\' || c.toNat < 0x20 then .error .malformed else readText (c :: read) cs
termination_by cs => cs.length

def takeFraction (cs : List Char) : List Char × List Char :=
  match cs with
  | '.' :: rest =>
    let digits := rest.takeWhile Numeral.isDigit
    if digits.isEmpty then ([], cs) else (digits, rest.dropWhile Numeral.isDigit)
  | _ => ([], cs)

def takeExponent (cs : List Char) : Option Int × List Char :=
  match cs with
  | c :: rest =>
    if c = 'e' || c = 'E' then
      let (negative, rest) := Numeral.takeSign rest
      let digits := rest.takeWhile Numeral.isDigit
      if digits.isEmpty then (none, cs)
      else
        let e : Int := Numeral.valueOf digits
        (some (if negative then -e else e), rest.dropWhile Numeral.isDigit)
    else
      (none, cs)
  | [] => (none, cs)

def readNumber (negative : Bool) (cs : List Char) : Except Failure (Value × List Char) :=
  let whole := match cs with
    | '0' :: _ => ['0']
    | cs => cs.takeWhile Numeral.isDigit
  if whole.isEmpty then .error .malformed
  else
    let (fraction, afterFraction) := takeFraction (cs.drop whole.length)
    let (exponent, rest) := takeExponent afterFraction
    if fraction.isEmpty && exponent.isNone then
      if longestInteger < whole.length then .error .integerTooLong
      else
        let n : Int := Numeral.valueOf whole
        .ok (.int (if negative then -n else n), rest)
    else
      let e := exponent.getD 0 - fraction.length
      .ok (.float (.ofDecimal negative (Numeral.valueOf (whole ++ fraction)) e), rest)

def words : List (List Char × Value) :=
  [("null".toList, .null), ("true".toList, .bool true), ("false".toList, .bool false),
    ("NaN".toList, .float .nan), ("Infinity".toList, .float (.infinite false)),
    ("-Infinity".toList, .float (.infinite true))]

def readScalar (cs : List Char) : Except Failure (Value × List Char) :=
  match words.find? fun w => w.1.isPrefixOf cs with
  | some (word, v) => .ok (v, cs.drop word.length)
  | none =>
    match cs with
    | '"' :: cs => (readText [] cs).map fun (s, rest) => (.text s, rest)
    | '-' :: cs => readNumber true cs
    | cs => readNumber false cs

mutual

def readValue (fuel levels : Nat) (cs : List Char) : Except Failure (Value × List Char) :=
  match fuel with
  | 0 => .error .malformed
  | fuel + 1 =>
    match cs, levels with
    | '[' :: _, 0 => .error (.tooDeep false)
    | '\x7b' :: _, 0 => .error (.tooDeep true)
    | '[' :: cs, levels + 1 =>
      match skipSpace cs with
      | ']' :: rest => .ok (.list [], rest)
      | cs => readItems fuel levels [] cs
    | '\x7b' :: cs, levels + 1 =>
      match skipSpace cs with
      | '\x7d' :: rest => .ok (.object [], rest)
      | cs => readMembers fuel levels [] cs
    | cs, _ => readScalar cs

def readItems (fuel levels : Nat) (read : List Value) (cs : List Char) :
    Except Failure (Value × List Char) :=
  match fuel with
  | 0 => .error .malformed
  | fuel + 1 =>
    match readValue fuel levels cs with
    | .error e => .error e
    | .ok (v, rest) =>
      match skipSpace rest with
      | ',' :: rest => readItems fuel levels (v :: read) (skipSpace rest)
      | ']' :: rest => .ok (.list (v :: read).reverse, rest)
      | _ => .error .malformed

def readMembers (fuel levels : Nat) (read : Fields) (cs : List Char) :
    Except Failure (Value × List Char) :=
  match fuel with
  | 0 => .error .malformed
  | fuel + 1 =>
    match cs with
    | '"' :: cs =>
      match readText [] cs with
      | .error e => .error e
      | .ok (key, rest) =>
        match skipSpace rest with
        | ':' :: rest =>
          match readValue fuel levels (skipSpace rest) with
          | .error e => .error e
          | .ok (v, rest) =>
            match skipSpace rest with
            | ',' :: rest => readMembers fuel levels (read.set key v) (skipSpace rest)
            | '\x7d' :: rest => .ok (.object (read.set key v), rest)
            | _ => .error .malformed
        | _ => .error .malformed
    | _ => .error .malformed

end

def readWithin (levels : Nat) (s : String) : Except Failure Value :=
  let cs := skipSpace s.toList
  -- A character is taken at least every second call, so this much fuel does not run out.
  match readValue (2 * cs.length + 2) levels cs with
  | .error e => .error e
  | .ok (v, rest) => if (skipSpace rest).isEmpty then .ok v else .error .malformed

def read (s : String) : Except Failure Value :=
  readWithin s.length s

end StageGate.Json
