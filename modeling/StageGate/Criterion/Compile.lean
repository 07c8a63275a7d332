import StageGate.Criterion
import StageGate.Pipeline
import StageGate.Rule.Reader
import StageGate.Value.Text

/-!
This module contains the compilation of criteria: what is stored about a criterion becomes a check, or is
refused with the path to what is wrong with it.
-/

namespace StageGate

structure CheckSource where
  id : Value
  name : Value
  kind : Value
  mandatory : Bool
  rule : Value
  deriving DecidableEq

def Criterion.source (c : Criterion) : CheckSource :=
  ⟨.int c.id, .text c.name, .text c.kind, c.mandatory, c.rule⟩

def Kind.ofValue? : Value → Option Kind
  | .text s => Kind.ofName? s
  | _ => none

def Kind.readRule (k : Kind) (path : String) (rule : Value) : Except Fault (Option Rule) :=
  if !k.hasRule then .ok none
  else if rule.isNull then Rule.fault path (k.name ++ " criterion requires a rule")
  else (Rule.read path rule).map some

namespace CheckSource

def path (s : CheckSource) : String :=
  "criterion[" ++ s.id.toText ++ "]"

def compile (s : CheckSource) : Except Fault Check := do
  match Kind.ofValue? s.kind with
  | some kind =>
    let rule ← kind.readRule (s.path ++ ".rule") s.rule
    Check.ofParts s.id s.name kind (.bool s.mandatory) rule
  | none => Rule.fault (s.path ++ ".kind") ("unknown criterion kind " ++ s.kind.shown)

def compileAll (sources : List CheckSource) : Except Fault (List Check) :=
  sources.mapM compile

end CheckSource

end StageGate
