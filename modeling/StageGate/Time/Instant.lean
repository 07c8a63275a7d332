import StageGate.Time.Calendar

/-!
This module contains instants, which are microseconds of universal time, and their texts.
-/

namespace StageGate

/-- The microseconds since the beginning of year 1. -/
structure Instant where
  micros : Int
  deriving DecidableEq, Inhabited, Repr

namespace Instant

def microsPerSecond : Nat := 1000000

def microsPerDay : Nat := 86400 * microsPerSecond

def limit : Int := 3652059 * microsPerDay

def InCalendar (t : Instant) : Prop :=
  0 ≤ t.micros ∧ t.micros < limit

instance (t : Instant) : Decidable t.InCalendar :=
  inferInstanceAs (Decidable (_ ∧ _))

def add? (t : Instant) (micros : Int) : Option Instant :=
  let t' : Instant := ⟨t.micros + micros⟩
  if t'.InCalendar then some t' else none

instance : LE Instant := ⟨fun s t => s.micros ≤ t.micros⟩

instance (s t : Instant) : Decidable (s ≤ t) :=
  inferInstanceAs (Decidable (s.micros ≤ t.micros))

def padded (width n : Nat) : String :=
  let digits := n.repr.toList
  String.ofList (List.replicate (width - digits.length) '0' ++ digits)

def clockText (secondOfDay : Nat) : String :=
  padded 2 (secondOfDay / 3600) ++ ":" ++ padded 2 (secondOfDay / 60 % 60) ++ ":" ++
    padded 2 (secondOfDay % 60)

def text (t : Instant) : String :=
  let n := t.micros.toNat
  let date := Date.ofDays (n / microsPerDay)
  let micros := n % microsPerSecond
  padded 4 date.year ++ "-" ++ padded 2 date.month ++ "-" ++ padded 2 date.day ++ "T" ++
    clockText (n % microsPerDay / microsPerSecond) ++
    if micros = 0 then "" else "." ++ padded 6 micros

def zonedText (t : Instant) : String :=
  t.text ++ "+00:00"

end Instant

end StageGate
