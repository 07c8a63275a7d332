import StageGate.Numeral

/-!
This module contains the patterns of log messages: texts with places, each of which says how an argument
is written. Reading a pattern does not fail; a place that makes no sense is found out when it is filled.
-/

namespace StageGate.Log

inductive Extent where
  | given (n : Nat)
  | next
  deriving DecidableEq

structure Place where
  left : Bool
  zeros : Bool
  explicit : Bool
  plus : List Char
  width : Extent
  places : Option Extent
  conversion : Option Char
  deriving DecidableEq

inductive Piece where
  | letter (c : Char)
  | place (p : Place)
  | named
  deriving DecidableEq

namespace Extent

def read : List Char → Extent × List Char
  | '*' :: cs => (.next, cs)
  | cs => (.given (Numeral.valueOf (cs.takeWhile Numeral.isDigit)), cs.dropWhile Numeral.isDigit)

theorem length_read (cs : List Char) : (read cs).2.length ≤ cs.length := by
  fun_cases read cs with
  | case1 => simp
  | case2 => exact (List.dropWhile_suffix Numeral.isDigit).length_le

def readBehindPoint : List Char → Option Extent × List Char
  | '.' :: cs => (some (read cs).1, (read cs).2)
  | cs => (none, cs)

theorem length_readBehindPoint (cs : List Char) : (readBehindPoint cs).2.length ≤ cs.length := by
  fun_cases readBehindPoint cs with
  | case1 cs => exact Nat.le_succ_of_le (length_read cs)
  | case2 => exact Nat.le_refl _

end Extent

namespace Place

def isFlag (c : Char) : Bool :=
  c = '-' || c = '0' || c = '+' || c = ' ' || c = '#'

def skipSize : List Char → List Char
  | c :: cs => if c = 'h' || c = 'l' || c = 'L' then cs else c :: cs
  | [] => []

theorem length_skipSize (cs : List Char) : (skipSize cs).length ≤ cs.length := by
  cases cs with
  | nil => simp [skipSize]
  | cons c cs =>
    simp only [skipSize]
    split <;> simp

def read (cs : List Char) : Place × List Char :=
  let flags := cs.takeWhile isFlag
  let (width, rest) := Extent.read (cs.dropWhile isFlag)
  let (places, rest) := Extent.readBehindPoint rest
  let rest := skipSize rest
  let plus := if flags.contains '+' then ['+'] else if flags.contains ' ' then [' '] else []
  (⟨flags.contains '-', flags.contains '0', flags.contains '#', plus, width, places, rest.head?⟩,
    rest.tail)

theorem length_read (cs : List Char) : (read cs).2.length ≤ cs.length := by
  have hf := (List.dropWhile_suffix (l := cs) isFlag).length_le
  have hw := Extent.length_read (cs.dropWhile isFlag)
  have hp := Extent.length_readBehindPoint (Extent.read (cs.dropWhile isFlag)).2
  have hs := length_skipSize (Extent.readBehindPoint (Extent.read (cs.dropWhile isFlag)).2).2
  simp only [read, List.length_tail]
  omega

end Place

def pieces : List Char → List Piece
  | [] => []
  | '%' :: '%' :: cs => .letter '%' :: pieces cs
  | '%' :: '(' :: _ => [.named]
  | '%' :: cs =>
    have := Place.length_read cs
    .place (Place.read cs).1 :: pieces (Place.read cs).2
  | c :: cs => .letter c :: pieces cs
  termination_by cs => cs.length

end StageGate.Log
