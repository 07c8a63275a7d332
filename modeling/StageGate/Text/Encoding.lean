import StageGate.Text.Surrogate

/-!
This module contains the encodings of texts as bytes. A text that is read begins with characters of ASCII,
so that the place of its first zero bytes tells how it is encoded. Halves of surrogate pairs are let through.
-/

namespace StageGate.Text

def bytes (s : String) : List Nat :=
  s.toUTF8.toList.map UInt8.toNat

inductive Encoding where
  | utf8
  | utf16 (bigEndian : Bool)
  | utf32 (bigEndian : Bool)
  deriving DecidableEq

namespace Encoding

def ofBytes : List Nat → Encoding
  | 0 :: 0 :: _ :: _ :: _ => .utf32 true
  | 0 :: _ :: _ :: _ :: _ => .utf16 true
  | _ :: 0 :: 0 :: 0 :: _ => .utf32 false
  | _ :: 0 :: _ :: _ :: _ => .utf16 false
  | [0, _] => .utf16 true
  | [_, 0] => .utf16 false
  | _ => .utf8

def unit (bigEndian : Bool) (bytes : List Nat) : Nat :=
  (if bigEndian then bytes else bytes.reverse).foldl (fun n b => 256 * n + b) 0

def pairs? (bigEndian : Bool) : List Nat → Option (List Nat)
  | [] => some []
  | a :: b :: rest => (pairs? bigEndian rest).map (unit bigEndian [a, b] :: ·)
  | _ => none

def quadruples? (bigEndian : Bool) : List Nat → Option (List Nat)
  | [] => some []
  | a :: b :: c :: d :: rest => (quadruples? bigEndian rest).map (unit bigEndian [a, b, c, d] :: ·)
  | _ => none

def joined : List Nat → List Char
  | m :: n :: rest =>
    if isHighSurrogate m && isLowSurrogate n then ofCodePoint (pairedSurrogates m n) :: joined rest
    else ofCodePoint m :: joined (n :: rest)
  | [n] => [ofCodePoint n]
  | [] => []

def character? (n : Nat) : Option Char :=
  if n < 0x110000 then some (ofCodePoint n) else none

end Encoding

def decoded? (s : String) : Option String :=
  let bytes := bytes s
  match Encoding.ofBytes bytes with
  | .utf8 => some s
  | .utf16 bigEndian =>
    (Encoding.pairs? bigEndian bytes).map fun units => String.ofList (Encoding.joined units)
  | .utf32 bigEndian => do
    return String.ofList (← (← Encoding.quadruples? bigEndian bytes).mapM Encoding.character?)

end StageGate.Text
