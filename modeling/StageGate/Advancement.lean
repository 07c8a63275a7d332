import StageGate.Service

/-!
This module contains the moves of entries between the stages of their pipeline. A move has to be one that
the pipeline allows, the stage must have room, and the criteria of the stage that is left must be met.
-/

namespace StageGate.Advancement

open Transaction Operation

/-! ## Where an entry may move -/

def moveRefusal? (p : Pipeline) (current target : Stage) : Except Fault (Option String) := do
  if target.id = current.id then return some "entry is already in this stage"
  if ← current.order.lt target.order then
    if !target.order.same (← current.order.succ) && !p.allowJumps then
      return some "stage jumps are not enabled for this pipeline"
    return none
  return if p.allowRegression then none else some "moving back is not enabled for this pipeline"

def resolveTarget (e : Entry) (target : Value) (s : Store) : Except Fault Stage := do
  let current ← Store.follow (s.stage? e.stage)
  let p ← Store.follow (s.pipeline? e.pipeline)
  let refuse (reason : String) : Except Fault Stage :=
    throw (.refused (.invalidTarget (.int e.id) target (.text reason)))
  match (← Store.seek s.stage? target).filter (·.pipeline = e.pipeline) with
  | none => refuse "stage does not belong to the entry's pipeline"
  | some stage =>
    match ← moveRefusal? p current stage with
    | some reason => refuse reason
    | none =>
      match stage.capacity? with
      | none => return stage
      | some limit =>
        if ← limit.atMost (.int (s.occupancy stage.id)) then
          throw (.refused (.capacityReached (.int e.id) (.int stage.id) limit))
        else
          return stage

def cappedStage? (target : Value) (s : Store) : Except Fault (Option Stage) := do
  return (← Store.seek s.stage? target).filter (·.capacity?.isSome)

/-! ## What has to be met -/

structure Knowledge where
  snapshot : Value
  context : Value

def contextOf (metrics : Fields) (given : Value) : Except Fault Fields := do
  return metrics.merge (Members.toFields Value.asText? (← given.asMembers))

def snapshotOf (e : Entry) (given : Value) (s : Store) : Except Fault Value := do
  if !given.isNull then return given
  return .object (← (← Store.follow (s.lead? e.lead)).snapshot)

def evaluateExit (c : ZonedCall) (e : Entry) (k : Knowledge) : Operation (Verdict × Health) := do
  let checks ← loadChecks e.stage
  reading fun s => do
    let now ← c.now.instant
    let sla ← s.healthOf c.window now e
    let context ← contextOf (sla.metrics e.enrolledAt now) k.context
    let snapshot ← snapshotOf e k.snapshot s
    let flags ← s.flagsOn e.lead checks
    return (← Verdict.of ⟨snapshot, .object context⟩ flags checks, sla)

def requireActive (e : Entry) : Operation Unit :=
  if e.isActive then pure () else throw (.refused (.notActive (.int e.id) (.text e.status.name)))

def preview (c : ZonedCall) (entry : Value) (k : Knowledge) : Operation Verdict := do
  let e ← reading (·.entry entry)
  requireActive e
  return (← evaluateExit c e k).1

/-! ## Moving -/

inductive MoveOutcome where
  | advanced
  | regressed
  | completed
  | criteriaNotMet
  deriving DecidableEq

namespace MoveOutcome

def name : MoveOutcome → String
  | .advanced => "advanced"
  | .regressed => "regressed"
  | .completed => "completed"
  | .criteriaNotMet => "criteria_not_met"

def action : MoveOutcome → Action
  | .regressed => .regress
  | .completed => .complete
  | _ => .advance

end MoveOutcome

structure Move where
  outcome : MoveOutcome
  entry : EntryView
  note : Value
  verdict : Verdict
  slaBefore : Health
  fromStage : Int
  toStage : Int

namespace Move

def ok (m : Move) : Bool :=
  m.outcome ≠ .criteriaNotMet

def entryFields (m : Move) : Fields :=
  if m.note.isNull then m.entry.core else m.entry.core.set "stage_note" m.note

def toValue (m : Move) : Value :=
  .object [("ok", .bool m.ok), ("outcome", .text m.outcome.name), ("entry", .object m.entryFields),
    ("evaluation", m.verdict.toValue), ("sla_before", m.slaBefore.toValue),
    ("from_stage_id", .int m.fromStage), ("to_stage_id", .int m.toStage)]

end Move

/-- The entry in its new stage, with the time of the move as it is shown. -/
def placed (c : ZonedCall) (shown : Instant) (e : Entry) (target : Stage) (note : Value) (s : Store) :
    Except Fault Entry := do
  let note ← Column.renew e.note note
  let moved (now : Instant) : Entry := { e.moveTo target.id now with note }
  if s.isTerminal target then return (moved shown).complete shown
  let now ← c.now.instant
  let health ← s.healthOf c.window now (moved now)
  return (moved shown).remember health.bucket

def move (c : ZonedCall) (e : Entry) (current target : Stage) (verdict : Verdict) (sla : Health)
    (note : Value) : Transaction Move := do
  let new ← reading (placed c c.now.reading e target note)
  -- The answer shows the entry as it is in hand, with the instant of the move, and not what its row keeps of it.
  let shown ← reading fun s => do placed c (← c.now.instant) e target note s
  let isForward ← current.order.lt target.order
  let outcome : MoveOutcome :=
    if !new.isActive then .completed else if isForward then .advanced else .regressed
  putEntry new
  record ⟨.entry, e.id, some e.lead, some e.pipeline, outcome.action, c.actor,
    .moved current.ref target.ref new.status sla (verdict.warnings.map (·.check.name))⟩ c.now.reading
  return ⟨outcome, ← reading (·.view c.window c.now shown), note, verdict, sla, current.id, target.id⟩

def advanceHeld (c : ZonedCall) (e : Entry) (target : Value) (k : Knowledge) (note : Value) :
    Operation Move := do
  requireActive e
  let stage ← reading (resolveTarget e target)
  let current ← reading fun s => Store.follow (s.stage? e.stage)
  let (verdict, sla) ← evaluateExit c e k
  if verdict.canAdvance then
    commit (move c e current stage verdict sla note)
  else
    let view ← reading (·.view c.window c.now e)
    return ⟨.criteriaNotMet, view, .null, verdict, sla, current.id, stage.id⟩

def advance (c : ZonedCall) (entry target : Value) (k : Knowledge) (note : Value) : Operation Move := do
  let e ← reading (·.entry entry)
  let left ← reading fun _ => c.wait.left
  let key := LockKey.entry (.int e.lead) (.int e.pipeline)
  holdingKey key key.waiter c.wait do
    match ← reading (cappedStage? target) with
    | none => advanceHeld c e target k note
    | some stage =>
      holdingKey (.stage (.int stage.id)) ⟨.int e.lead, .int e.pipeline, .int stage.id⟩ left
        (advanceHeld c e target k note)

end StageGate.Advancement
