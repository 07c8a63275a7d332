import StageGate.Criterion.Compile
import StageGate.Value.Equality
import StageGate.Value.Normal

/-!
This module contains the cache of compiled criteria. What was compiled for a stage is used again as long
as nothing that the result depends on has changed.
-/

namespace StageGate

namespace CheckSource

def agrees (s t : CheckSource) : Bool :=
  s.id.same t.id && s.kind.same t.kind && s.mandatory == t.mandatory && s.name.same t.name &&
    s.rule.normal = t.rule.normal

def allAgree : List CheckSource → List CheckSource → Bool
  | [], [] => true
  | s :: ss, t :: ts => s.agrees t && allAgree ss ts
  | _, _ => false

end CheckSource

structure Compiled where
  stage : Int
  sources : List CheckSource
  checks : List Check

abbrev CriteriaCache := List Compiled

namespace CriteriaCache

def find? (cache : CriteriaCache) (stage : Int) : Option Compiled :=
  List.find? (·.stage = stage) cache

def drop (cache : CriteriaCache) (stage : Int) : CriteriaCache :=
  cache.filter (·.stage ≠ stage)

def hit? (cache : CriteriaCache) (stage : Int) (sources : List CheckSource) :
    Option (List Check) := do
  let compiled ← cache.find? stage
  if CheckSource.allAgree compiled.sources sources then some compiled.checks else none

def load (cache : CriteriaCache) (stage : Int) (sources : List CheckSource) :
    Except Fault (List Check × CriteriaCache) :=
  match cache.hit? stage sources with
  | some checks => .ok (checks, cache)
  | none => do
    let checks ← CheckSource.compileAll sources
    return (checks, ⟨stage, sources, checks⟩ :: cache.drop stage)

end CriteriaCache

end StageGate
