import StageGate.Text.Hex
import StageGate.Text.Printable
import StageGate.Text.Surrogate

/-!
This module contains texts in quotes, the way a value is shown inside a message.
-/

namespace StageGate.Text

def quoteFor (cs : List Char) : Char :=
  -- The quotation mark is taken only where it saves an escape.
  if cs.contains '\'' && !cs.contains '"' then '"' else '\''

def byCode (c : Char) : List Char :=
  let n := (surrogate? c).getD c.toNat
  if n < 0x100 then '\\' :: 'x' :: hex 2 n
  else if n < 0x10000 then '\\' :: 'u' :: hex 4 n
  else '\\' :: 'U' :: hex 8 n

def escape (quote c : Char) : List Char :=
  if c = quote || c = '\\' then ['\\', c]
  else if c = '\n' then ['\\', 'n']
  else if c = '\r' then ['\\', 'r']
  else if c = '\t' then ['\\', 't']
  else if isPrintable c then [c]
  else byCode c

def quoted (s : String) : String :=
  let cs := s.toList
  let quote := quoteFor cs
  String.ofList (quote :: cs.flatMap (escape quote) ++ [quote])

def ascii (s : String) : String :=
  String.ofList (s.toList.flatMap fun c => if c.toNat < 0x80 then [c] else byCode c)

end StageGate.Text
