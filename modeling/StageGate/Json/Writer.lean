import StageGate.Text.Hex
import StageGate.Value

/-!
This module contains the writer of JSON texts.
-/

namespace StageGate.Json

structure Separators where
  item : String
  key : String

def compact : Separators := ⟨",", ":"⟩

def spaced : Separators := ⟨", ", ": "⟩

def escape (c : Char) : List Char :=
  if c = '"' || c = '\\' then ['\\', c]
  else if c = '\n' then ['\\', 'n']
  else if c = '\r' then ['\\', 'r']
  else if c = '\t' then ['\\', 't']
  else if c.toNat = 8 then ['\\', 'b']
  else if c.toNat = 12 then ['\\', 'f']
  else if c.toNat < 0x20 then '\\' :: 'u' :: Text.hex 4 c.toNat
  else [c]

def writeText (s : String) : String :=
  String.ofList ('"' :: s.toList.flatMap escape ++ ['"'])

def writeFloat : Binary64 → String
  | .nan => "NaN"
  | .infinite negative => if negative then "-Infinity" else "Infinity"
  | x => x.text

mutual

def write (sep : Separators) : Value → String
  | .null => "null"
  | .bool b => if b then "true" else "false"
  | .int n => toString n
  | .float x => writeFloat x
  | .decimal x => writeText x.text
  | .text s => writeText s
  | .list items => "[" ++ sep.item.intercalate (writeItems sep items) ++ "]"
  | .object fields => "\x7b" ++ sep.item.intercalate (writeFields sep fields) ++ "\x7d"

def writeItems (sep : Separators) : List Value → List String
  | [] => []
  | v :: vs => write sep v :: writeItems sep vs

def writeFields (sep : Separators) : List (String × Value) → List String
  | [] => []
  | (k, v) :: fs => (writeText k ++ sep.key ++ write sep v) :: writeFields sep fs

end

end StageGate.Json
