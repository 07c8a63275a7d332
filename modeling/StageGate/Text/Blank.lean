import StageGate.Text.Ranges

/-!
This module contains the blank characters and the trimming of a text.
-/

namespace StageGate.Text

/-- The white space of Unicode together with the four information separators of ASCII. -/
def blanks : Ranges := #[
  (0x9, 0xd), (0x1c, 0x20), (0x85, 0x85), (0xa0, 0xa0), (0x1680, 0x1680), (0x2000, 0x200a),
  (0x2028, 0x2029), (0x202f, 0x202f), (0x205f, 0x205f), (0x3000, 0x3000)]

def isBlank (c : Char) : Bool :=
  blanks.contains c

def strip (isStripped : Char → Bool) (cs : List Char) : List Char :=
  ((cs.dropWhile isStripped).reverse.dropWhile isStripped).reverse

def trim (s : String) : String :=
  String.ofList (strip isBlank s.toList)

end StageGate.Text
