import StageGate.Text.Hex

/-!
This module contains the texts of addresses: bytes that stand as a percent sign and two digits, and the
characters that bytes encode. Bytes that encode none become a replacement character.
-/

namespace StageGate.Api

def unescape : List Char → List Nat
  | [] => []
  | '%' :: a :: b :: cs =>
    match Text.hexValue? a, Text.hexValue? b with
    | some m, some n => (16 * m + n) :: unescape cs
    | _, _ => 37 :: unescape (a :: b :: cs)
  | c :: cs => (String.singleton c).toUTF8.toList.map UInt8.toNat ++ unescape cs

structure FirstByte where
  following : Nat
  bits : Nat
  first : Nat
  last : Nat

def firstByte? (b : Nat) : Option FirstByte :=
  if 0xc2 ≤ b && b ≤ 0xdf then some ⟨1, b - 0xc0, 0x80, 0xbf⟩
  else if b = 0xe0 then some ⟨2, 0, 0xa0, 0xbf⟩
  else if b = 0xed then some ⟨2, 13, 0x80, 0x9f⟩
  else if 0xe1 ≤ b && b ≤ 0xef then some ⟨2, b - 0xe0, 0x80, 0xbf⟩
  else if b = 0xf0 then some ⟨3, 0, 0x90, 0xbf⟩
  else if 0xf1 ≤ b && b ≤ 0xf3 then some ⟨3, b - 0xf0, 0x80, 0xbf⟩
  else if b = 0xf4 then some ⟨3, 4, 0x80, 0x8f⟩
  else none

def replacement : Char := '\ufffd'

def character (following bits first last : Nat) (bytes : List Nat) : Char × List Nat :=
  match following, bytes with
  | 0, bytes => (Char.ofNat bits, bytes)
  | _ + 1, [] => (replacement, [])
  | n + 1, b :: bytes =>
    if first ≤ b && b ≤ last then character n (64 * bits + b % 64) 0x80 0xbf bytes
    else (replacement, b :: bytes)

theorem length_character (following bits first last : Nat) (bytes : List Nat) :
    (character following bits first last bytes).2.length ≤ bytes.length := by
  fun_induction character with
  | case1 => simp
  | case2 => simp
  | case3 n bits first last b bytes h ih => simp; omega
  | case4 => simp

def decode : List Nat → List Char
  | [] => []
  | b :: bytes =>
    if b < 0x80 then Char.ofNat b :: decode bytes
    else
      match firstByte? b with
      | none => replacement :: decode bytes
      | some l =>
        have := length_character l.following l.bits l.first l.last bytes
        (character l.following l.bits l.first l.last bytes).1 ::
          decode (character l.following l.bits l.first l.last bytes).2
  termination_by bytes => bytes.length

def unquote (cs : List Char) : List Char :=
  decode (unescape cs)

end StageGate.Api
