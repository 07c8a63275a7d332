import StageGate.Numeral
import StageGate.Time.Instant

/-!
This module contains time stamps, which are what a clock shows together with its distance from universal
time, if it is known. They are read from texts: a date, which may also be given by its week, and perhaps a
time of the day and a zone behind any character.
-/

namespace StageGate

structure Stamp where
  reading : Instant
  ahead : Option Int
  deriving DecidableEq, Inhabited

namespace Stamp

/-- What a clock shows that keeps universal time. -/
abbrev universal (t : Instant) : Stamp :=
  ⟨t, some 0⟩

instance : Coe Instant Stamp := ⟨universal⟩

def instant? (s : Stamp) : Option Instant :=
  match s.ahead with
  | none => some s.reading
  | some micros => if micros = 0 then some s.reading else s.reading.add? (-micros)

/-! ## Texts -/

def zoneText (ahead : Int) : String :=
  let micros := ahead.natAbs
  let second := micros / Instant.microsPerSecond
  let rest := micros % Instant.microsPerSecond
  (if ahead < 0 then "-" else "+") ++ Instant.padded 2 (second / 3600) ++ ":" ++
    Instant.padded 2 (second / 60 % 60) ++
    (if second % 60 = 0 && rest = 0 then "" else ":" ++ Instant.padded 2 (second % 60)) ++
    if rest = 0 then "" else "." ++ Instant.padded 6 rest

def text (s : Stamp) : String :=
  s.reading.text ++ (s.ahead.map zoneText).getD ""

/-! ## Numbers -/

def number? (count : Nat) (cs : List Char) : Option (Nat × List Char) :=
  let digits := cs.take count
  if digits.length = count && digits.all Numeral.isDigit then
    some (Numeral.valueOf digits, cs.drop count)
  else
    none

def terminator : Char := Char.ofNat 0

def next (cs : List Char) : Char :=
  cs.headD terminator

/-! ## Dates -/

def dateLength (cs : List Char) : Nat :=
  let nth (i : Nat) : Char := cs.getD i terminator
  if cs.length = 7 then 7
  else if nth 4 = '-' then
    if nth 5 ≠ 'W' then 10
    else if nth 8 ≠ '-' || Numeral.isDigit (nth 10) then 8
    else 10
  else if nth 4 = 'W' then
    let digits := ((cs.drop 7).takeWhile Numeral.isDigit).length
    if digits < 2 then 7 + digits else if digits % 2 = 1 then 7 else 8
  else 8

def afterHyphen? (isNeeded : Bool) (cs : List Char) : Option (List Char) :=
  if !isNeeded then some cs
  else if next cs = '-' then some cs.tail
  else none

def date? (length : Nat) (cs : List Char) : Option Date := do
  let (year, cs) ← number? 4 cs
  let hyphens := next cs = '-'
  let cs := if hyphens then cs.tail else cs
  if next cs = 'W' then
    let (week, cs) ← number? 2 cs.tail
    if length ≤ (if hyphens then 8 else 7) then Date.ofWeek? year week 1
    else
      let (day, _) ← number? 1 (← afterHyphen? hyphens cs)
      Date.ofWeek? year week day
  else
    let (month, cs) ← number? 2 cs
    let (day, _) ← number? 2 (← afterHyphen? hyphens cs)
    let date : Date := ⟨year, month, day⟩
    if length = (if hyphens then 10 else 8) && date.isValid then some date else none

/-! ## Times of the day -/

inductive Remainder where
  | none (isEmpty : Bool)
  | fraction (length : Nat) (cs : List Char)

/--
Reads up to `count` numbers of two digits from the first `length` characters. All of them are set off by
colons, or none.
-/
def parts? (count : Nat) (colons : Option Bool) (length : Nat) (cs : List Char) :
    Option (List Nat × Remainder) :=
  match count with
  | 0 => some ([], .fraction length cs)
  | count + 1 => do
    let (n, cs) ← number? 2 cs
    let mark := next cs
    let colons := colons.getD (mark = ':')
    if length ≤ 3 && mark.toNat < 0x80 then return ([n], .none (mark = terminator))
    else if colons && mark = ':' then
      let (ns, rest) ← parts? count (some colons) (length - 3) cs.tail
      return (n :: ns, rest)
    else if mark = '.' || mark = ',' then return ([n], .fraction (length - 3) cs.tail)
    else if !colons then
      let (ns, rest) ← parts? count (some colons) (length - 2) cs
      return (n :: ns, rest)
    else none

def fraction? (length : Nat) (cs : List Char) : Option (Nat × Bool) := do
  let count := min length 6
  let (n, cs) ← number? count cs
  return (n * Nat.pow 10 (6 - count), next (cs.dropWhile Numeral.isDigit) = terminator)

structure Clock where
  hour : Nat
  minute : Nat
  second : Nat
  micros : Nat
  isLast : Bool

namespace Clock

def isValid (c : Clock) : Bool :=
  c.hour < 24 && c.minute < 60 && c.second < 60

def totalMicros (c : Clock) : Nat :=
  (c.hour * 3600 + c.minute * 60 + c.second) * Instant.microsPerSecond + c.micros

end Clock

def clock? (length : Nat) (cs : List Char) : Option Clock := do
  let (ns, rest) ← parts? 3 none length cs
  let (micros, isLast) ←
    match rest with
    | .none isEmpty => some (0, isEmpty)
    | .fraction length cs => fraction? length cs
  return ⟨ns.getD 0 0, ns.getD 1 0, ns.getD 2 0, micros, isLast⟩

/-! ## Zones -/

def isZoneMark (c : Char) : Bool :=
  c = '+' || c = '-' || c = 'Z'

def zone? (cs : List Char) : Option Int := do
  let zone ← clock? cs.length cs
  if zone.isLast && zone.totalMicros < Instant.microsPerDay then
    -- Less than a second ahead is not ahead.
    some (if zone.totalMicros < Instant.microsPerSecond then 0 else zone.totalMicros)
  else
    none

def time? (cs : List Char) : Option (Nat × Option Int) := do
  let length := (cs.takeWhile fun c => !isZoneMark c).length
  let clock ← clock? length cs
  if !clock.isValid then none
  match cs.drop length with
  | [] => if clock.isLast then some (clock.totalMicros, none) else none
  | 'Z' :: rest => if next rest = terminator then some (clock.totalMicros, some 0) else none
  | '-' :: rest => (zone? rest).map fun n => (clock.totalMicros, some (-n))
  | _ :: rest => (zone? rest).map fun n => (clock.totalMicros, some n)

def ofText? (s : String) : Option Stamp := do
  let cs := s.toList
  if cs.length < 7 then none
  let length := dateLength cs
  let date ← date? length cs
  let (micros, ahead) ←
    match cs.drop length with
    | [] => some (0, none)
    | _ :: rest => time? rest
  return ⟨⟨date.toDays * Instant.microsPerDay + micros⟩, ahead⟩

end Stamp

end StageGate
