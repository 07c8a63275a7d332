import StageGate.Configuration
import StageGate.Service

/-!
This module contains the settling of criteria by hand: a checklist criterion is done, or a manual one is
approved, for one lead. There is one row for each lead and criterion, with both flags.
-/

namespace StageGate.Flagging

open Transaction Operation StageGate.Configuration

inductive Flag where
  | done
  | approved
  deriving DecidableEq

namespace Flag

def name : Flag → String
  | .done => "done"
  | .approved => "approved"

def kind : Flag → Kind
  | .done => .checklist
  | .approved => .manual

def action : Flag → Action
  | .done => .checklist
  | .approved => .approval

def of (flag : Flag) (r : FlagRow) : Bool :=
  match flag with
  | .done => r.done
  | .approved => r.approved

def set (flag : Flag) (value : Bool) (r : FlagRow) : FlagRow :=
  match flag with
  | .done => { r with done := value }
  | .approved => { r with approved := value }

end Flag

def requireSettled (flag : Flag) (criterion : Value) (s : Store) : Except Fault Criterion := do
  let c ← s.criterion criterion
  if c.kind ≠ flag.kind.name then
    throw (.refused (.invalid
      ("Criterion " ++ criterion.toText ++ " is a " ++ c.kind ++ " criterion, not " ++ flag.kind.name)
      (.object [("kind", .text c.kind)])))
  return c

def row? (lead criterion : Value) (s : Store) : Except Fault (Option FlagRow) := do
  let lead ← Store.rowId? lead
  let criterion ← Store.rowId? criterion
  return s.flags.find? fun r => lead = some r.lead && criterion = some r.criterion

def blankRow (lead criterion : Int) (s : Store) : FlagRow := {
  id := Store.nextId (s.flags.map (·.id))
  lead
  criterion
  done := false
  approved := false
  validatedBy := none
  validatedAt := none
  notes := none }

def saveRow (isThere : Bool) (r : FlagRow) : Transaction Unit :=
  if isThere then putFlags r else addFlags r

def draftFlag (a : Author) (lead criterion : Value) (flag : Flag) (value : Bool) (notes : Value) : Draft FlagRow := do
  let l ← Draft.look (·.lead lead)
  let c ← Draft.look (requireSettled flag criterion)
  let old ← Draft.look (row? lead criterion)
  let base := old.getD (blankRow l.id c.id (← get))
  let new ← Draft.write do
    let validatedBy ← Column.text a.name
    let notes ← Column.renew base.notes notes
    let new := flag.set value { base with validatedBy, validatedAt := some a.now, notes }
    saveRow old.isSome new
    return new
  let stage ← Draft.look fun s => Store.follow (s.stage? c.stage)
  Draft.write
    (record ⟨.flags, new.id, some l.id, some stage.pipeline, flag.action, a.name,
      .document (.object [(flag.name, Change.pair (.bool (flag.of base)) (.bool value)),
        ("criterion_id", criterion)])⟩ a.now)
  return new

end StageGate.Flagging
