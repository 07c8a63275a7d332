import StageGate.Text.Hex

/-!
This module contains the halves of surrogate pairs. A half that stands alone is no character, though a
document may spell one out; it is held by a character of a plane that has none of its own.
-/

namespace StageGate.Text

def isHighSurrogate (n : Nat) : Bool :=
  0xd800 ≤ n && n < 0xdc00

def isLowSurrogate (n : Nat) : Bool :=
  0xdc00 ≤ n && n < 0xe000

def pairedSurrogates (high low : Nat) : Nat :=
  0x10000 + (high - 0xd800) * 0x400 + (low - 0xdc00)

/-- The plane of the characters that hold halves. -/
def heldPlane : Nat := 0xc0000

def ofCodePoint (n : Nat) : Char :=
  Char.ofNat (if isHighSurrogate n || isLowSurrogate n then heldPlane + n else n)

def surrogate? (c : Char) : Option Nat :=
  let n := c.toNat - heldPlane
  if isHighSurrogate n || isLowSurrogate n then some n else none

def isEncodable (s : String) : Bool :=
  s.toList.all fun c => (surrogate? c).isNone

def spellSurrogates (s : String) : String :=
  String.ofList (s.toList.flatMap spelled)
where
  spelled (c : Char) : List Char :=
    match surrogate? c with
    | some n => '\\' :: 'u' :: hex 4 n
    | none => [c]

end StageGate.Text
