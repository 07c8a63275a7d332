import StageGate.Log.Pattern
import StageGate.Value.Arithmetic
import StageGate.Value.Integer

/-!
This module contains the messages of a log: patterns whose places are filled with arguments, from left to
right.
-/

namespace StageGate.Log

namespace Extent

def most (limit : Nat) (n : Int) : Except Fault Int :=
  if n.natAbs < limit then .ok n else .error (.broken .tooLarge)

def resolve (limit : Nat) (e : Extent) (args : List Value) : Except Fault (Int × List Value) :=
  match e, args with
  | .given n, args => if n < limit then .ok (n, args) else .error (.broken .notAnInteger)
  | .next, v :: args =>
    match v.whole? with
    | some n => (most limit n).map fun n => (n, args)
    | none => .error (.broken .wrongKind)
  | .next, [] => .error (.broken .wrongKind)

def resolve? (limit : Nat) (e : Option Extent) (args : List Value) :
    Except Fault (Option Nat × List Value) :=
  match e with
  | none => .ok (none, args)
  | some e => (e.resolve limit args).map fun (n, args) => (some n.toNat, args)

end Extent

structure Style where
  left : Bool
  zeros : Bool
  explicit : Bool
  plus : List Char
  width : Nat
  places : Option Nat

namespace Style

def pad (s : Style) (head body : List Char) (isNumber : Bool) : List Char :=
  let missing := s.width - (head.length + body.length)
  if s.left then head ++ body ++ List.replicate missing ' '
  else if s.zeros && isNumber then head ++ List.replicate missing '0' ++ body
  else List.replicate missing ' ' ++ head ++ body

def signOf (s : Style) (negative : Bool) : List Char :=
  if negative then ['-'] else s.plus

def text (s : Style) (t : String) : List Char :=
  s.pad [] (match s.places with | none => t.toList | some n => t.toList.take n) false

def integer (s : Style) (base : List Char) (digits : List Char) (negative : Bool) : List Char :=
  let digits := List.replicate (s.places.getD 0 - digits.length) '0' ++ digits
  s.pad (s.signOf negative ++ if s.explicit then base else []) digits true

def float (s : Style) (text : String) : List Char :=
  match text.toList with
  | '-' :: body => s.pad ['-'] body true
  | body => s.pad s.plus body true

def decimalInteger (s : Style) (v : Value) : Except Fault (List Char) := do
  if v.magnitude?.isNone then throw (.broken .wrongKind)
  let n ← v.toInteger
  let digits := n.natAbs.repr.toList
  if longestInteger < digits.length then throw (.broken .notAnInteger)
  return s.integer [] digits (n < 0)

def basedInteger (s : Style) (base : Nat) (letter : Char) (v : Value) : Except Fault (List Char) :=
  match v.whole? with
  | some n => .ok (s.integer ['0', letter] (Nat.toDigits base n.natAbs) (n < 0))
  | none => .error (.broken .wrongKind)

def fixed (s : Style) (x : Binary64) : String :=
  let places := s.places.getD 6
  let text := x.fixedText places
  if s.explicit && places = 0 && x.isFinite then text.push '.' else text

def character (v : Value) : Except Fault Char :=
  match v with
  | .text t =>
    match t.toList with
    | [c] => .ok c
    | _ => .error (.broken .wrongKind)
  | v =>
    match v.whole? with
    | some n =>
      if 0 ≤ n ∧ n < 0x110000 then .ok (Text.ofCodePoint n.toNat) else .error (.broken .tooLarge)
    | none => .error (.broken .wrongKind)

def upper (cs : List Char) : List Char :=
  cs.map Char.toUpper

def write (s : Style) (conversion : Char) (v : Value) : Except Fault (List Char) :=
  match conversion with
  | 's' => .ok (s.text v.toText)
  | 'r' => .ok (s.text v.shown)
  | 'a' => .ok (s.text (Text.ascii v.shown))
  | 'd' | 'i' | 'u' => s.decimalInteger v
  | 'o' => s.basedInteger 8 'o' v
  | 'x' => s.basedInteger 16 'x' v
  | 'X' => (s.basedInteger 16 'x' v).map upper
  | 'e' => v.toFloat.map (s.float <| ·.scientificText (s.places.getD 6) s.explicit)
  | 'E' => v.toFloat.map (upper <| s.float <| ·.scientificText (s.places.getD 6) s.explicit)
  | 'f' => v.toFloat.map (s.float <| s.fixed ·)
  | 'F' => v.toFloat.map (upper <| s.float <| s.fixed ·)
  | 'g' => v.toFloat.map (s.float <| ·.generalTextWith (s.places.getD 6) s.explicit)
  | 'G' => v.toFloat.map (upper <| s.float <| ·.generalTextWith (s.places.getD 6) s.explicit)
  | 'c' => (character v).map fun c => s.pad [] [c] false
  | _ => .error (.broken .notAnInteger)

end Style

def Place.fill (p : Place) (args : List Value) : Except Fault (List Char × List Value) := do
  let (width, args) ← p.width.resolve (Nat.pow 2 63) args
  let (places, args) ← Extent.resolve? (Nat.pow 2 31) p.places args
  let style : Style := ⟨p.left || width < 0, p.zeros, p.explicit, p.plus, width.natAbs, places⟩
  match p.conversion, args with
  | none, _ => throw (.broken .notAnInteger)
  | some _, [] => throw (.broken .wrongKind)
  | some c, v :: args => return (← style.write c v, args)

def fill : List Piece → List Value → Except Fault (List Char)
  | [], [] => .ok []
  | [], _ :: _ => .error (.broken .wrongKind)
  | .letter c :: rest, args => (fill rest args).map (c :: ·)
  | .named :: _, _ => .error (.broken .wrongKind)
  | .place p :: rest, args => do
    let (written, args) ← p.fill args
    return written ++ (← fill rest args)

def message (pattern : String) (args : List Value) : Except Fault String :=
  if args.isEmpty then .ok pattern
  else (fill (pieces pattern.toList) args).map String.ofList

end StageGate.Log
