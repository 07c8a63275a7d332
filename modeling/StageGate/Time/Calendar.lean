/-!
This module contains the dates of the Gregorian calendar from year 1 on and their day numbers, day
zero being the first of January of year 1.
-/

namespace StageGate

structure Date where
  year : Nat
  month : Nat
  day : Nat
  deriving DecidableEq, Repr

namespace Date

def isLeap (year : Nat) : Bool :=
  year % 4 == 0 && (year % 100 != 0 || year % 400 == 0)

def monthLengths (year : Nat) : List Nat :=
  [31, if isLeap year then 29 else 28, 31, 30, 31, 30, 31, 31, 30, 31, 30, 31]

def daysBefore (year : Nat) : Nat :=
  let y := year - 1
  y * 365 + y / 4 - y / 100 + y / 400

def isValid (d : Date) : Bool :=
  1 ≤ d.year && d.year ≤ 9999 && 1 ≤ d.month && d.month ≤ 12 && 1 ≤ d.day &&
    d.day ≤ (monthLengths d.year).getD (d.month - 1) 0

def toDays (d : Date) : Nat :=
  daysBefore d.year + ((monthLengths d.year).take (d.month - 1)).foldl (· + ·) 0 + (d.day - 1)

def ofDayOfYear (year month n : Nat) : List Nat → Date
  | [] => ⟨year, 12, 31⟩
  | length :: lengths =>
    if n < length then ⟨year, month, n + 1⟩ else ofDayOfYear year (month + 1) (n - length) lengths

def ofDays (n : Nat) : Date :=
  let n400 := n / 146097
  let n := n % 146097
  -- The last century of a great period, and the last year of four, may have one day more.
  let n100 := min (n / 36524) 3
  let n := n - n100 * 36524
  let n4 := n / 1461
  let n := n % 1461
  let n1 := min (n / 365) 3
  let year := n400 * 400 + n100 * 100 + n4 * 4 + n1 + 1
  ofDayOfYear year 1 (n - n1 * 365) (monthLengths year)

def weekdayOfNewYear (year : Nat) : Nat :=
  daysBefore year % 7

def weeks (year : Nat) : Nat :=
  let weekday := weekdayOfNewYear year
  -- A week belongs to the year that has more of its days.
  if weekday = 3 || (weekday = 2 && isLeap year) then 53 else 52

def firstMonday (year : Nat) : Nat :=
  let weekday := weekdayOfNewYear year
  daysBefore year - weekday + if 3 < weekday then 7 else 0

def ofWeek? (year week day : Nat) : Option Date :=
  if 1 ≤ year && 1 ≤ week && week ≤ weeks year && 1 ≤ day && day ≤ 7 then
    let date := ofDays (firstMonday year + (week - 1) * 7 + (day - 1))
    if date.year ≤ 9999 then some date else none
  else
    none

end Date

end StageGate
