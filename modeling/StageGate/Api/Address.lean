import StageGate.Api.Percent
import StageGate.Fault
import StageGate.Text.Split

/-!
This module contains the addresses of requests: a path, and a query behind a question mark. A scheme and a
host may stand in front of the path, and a mark of a place behind all of it; they make no difference.
-/

namespace StageGate.Api

structure Address where
  path : List Char
  query : List Char
  deriving DecidableEq

namespace Address

def isPadding (c : Char) : Bool :=
  c.toNat ≤ 0x20

def isDropped (c : Char) : Bool :=
  c = '\t' || c = '\r' || c = '\n'

def isSchemeCharacter (c : Char) : Bool :=
  c.isAlphanum || c = '+' || c = '-' || c = '.'

def withoutScheme (cs : List Char) : List Char :=
  let scheme := cs.takeWhile (· ≠ ':')
  if scheme.length < cs.length && scheme.head?.any Char.isAlpha && scheme.all isSchemeCharacter then
    cs.drop (scheme.length + 1)
  else
    cs

def isHostCharacter (c : Char) : Bool :=
  c ≠ '/' && c ≠ '?' && c ≠ '#'

def withoutHost (cs : List Char) : Except Fault (List Char) :=
  match cs with
  | '/' :: '/' :: rest =>
    let host := rest.takeWhile isHostCharacter
    if host.contains '[' == host.contains ']' then .ok (rest.dropWhile isHostCharacter)
    else .error (.broken .illegalCharacter)
  | cs => .ok cs

def split (cs : List Char) : Except Fault Address := do
  let given := (cs.dropWhile isPadding).filter fun c => !isDropped c
  let kept := (← withoutHost (withoutScheme given)).takeWhile (· ≠ '#')
  return ⟨kept.takeWhile (· ≠ '?'), (kept.dropWhile (· ≠ '?')).drop 1⟩

def joined (a : Address) : List Char :=
  if a.query.isEmpty then a.path else a.path ++ '?' :: a.query

def ofText (s : String) : Except Fault Address := do
  split (← split s.toList).joined

def plainPath (a : Address) : List Char :=
  '/' :: (unquote a.path).dropWhile (· = '/')

def parameters (a : Address) : List (String × String) :=
  ((Text.split '&' a.query).filter (· ≠ [])).map fun part =>
    (word (part.takeWhile (· ≠ '=')), word ((part.dropWhile (· ≠ '=')).drop 1))
where
  word (cs : List Char) : String :=
    String.ofList (unquote (cs.map fun c => if c = '+' then ' ' else c))

end Address

end StageGate.Api
