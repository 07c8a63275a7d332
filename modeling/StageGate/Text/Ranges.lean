/-!
This module contains sets of characters given as ranges of code points.
-/

namespace StageGate.Text

/-- The first and the last code point of each range. -/
abbrev Ranges := Array (Nat × Nat)

def Ranges.contains (ranges : Ranges) (c : Char) : Bool :=
  ranges.any fun r => r.1 ≤ c.toNat && c.toNat ≤ r.2

end StageGate.Text
