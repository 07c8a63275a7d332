import StageGate.Service

/-!
This module contains the enrollment of leads, one by one and many at once. A lead enters a pipeline at its
first stage, and has at most one active entry in it.
-/

namespace StageGate.Enrollment

open Transaction Operation

def enrollable (id : Value) (s : Store) : Except Fault Pipeline := do
  let p ← s.pipeline id
  if !p.isActive then
    throw (.refused (.invalid ("Pipeline " ++ toString p.id ++ " is inactive")
      (.object [("pipeline_id", .int p.id)])))
  s.validate p
  return p

def requireVacant (leadName pipelineName : Value) (lead pipeline : Int) (s : Store) : Except Fault Unit :=
  match s.activeEntryIn? lead pipeline with
  | some e => .error (.refused (.alreadyEnrolled leadName pipelineName (.int e.id) none))
  | none => .ok ()

def newEntry (c : ZonedCall) (name : Value) (lead pipeline : Int) (note : Value) (source : Option Int)
    (s : Store) : Except Fault (Entry × Stage) := do
  requireVacant name (.int pipeline) lead pipeline s
  let first ← Store.follow (s.stagesOf pipeline).head?
  let note ← Column.text note
  let now ← c.now.instant
  let health ← Health.of now now first.deadline c.window
  let e : Entry := {
    id := Store.nextId (s.entries.map (·.id))
    lead
    pipeline
    stage := first.id
    status := .active
    enrolledAt := c.now.reading
    enteredAt := c.now.reading
    closedAt := none
    archiveReason := none
    note
    healthCache := some health.bucket.name
    transferredFrom := source }
  return (e, first)

def openEntry (c : ZonedCall) (name : Value) (lead pipeline : Int) (note : Value) (source : Option Int) :
    Transaction (Entry × Stage) := do
  let (e, first) ← reading (newEntry c name lead pipeline note source)
  addEntry e
  return (e, first)

def openRecorded (c : ZonedCall) (name : Value) (lead pipeline : Int) (note : Value) (bulk : Bool) :
    Transaction Entry := do
  let (e, first) ← openEntry c name lead pipeline note none
  record ⟨.entry, e.id, some e.lead, some e.pipeline, .enroll, c.actor,
    .enrolled first.ref bulk⟩ c.now.reading
  return e

def refusingEntry {α : Type} (lead pipeline : Value) (t : Transaction α) : Transaction α :=
  refusingViolations (fun constraint => .alreadyEnrolled lead pipeline .null constraint) t

def enroll (c : ZonedCall) (lead pipeline note : Value) : Operation EntryView := do
  let l ← reading (·.lead lead)
  let p ← reading (enrollable pipeline)
  let key := LockKey.entry lead pipeline
  let e ← holdingKey key key.waiter c.wait
    (commit (refusingEntry lead pipeline (openRecorded c lead l.id p.id note false)))
  reading (·.view c.window c.now e)

structure Skip where
  lead : Value
  entry : Int
  deriving DecidableEq

def Skip.toValue (s : Skip) : Value :=
  .object [("lead_id", s.lead), ("entry_id", .int s.entry), ("reason", .text "already_enrolled")]

structure Bulk where
  enrolled : List EntryView
  skipped : List Skip
  deriving DecidableEq

def Bulk.toValue (b : Bulk) : Value :=
  .object [("enrolled", .list (b.enrolled.map EntryView.toValue)),
    ("skipped", .list (b.skipped.map Skip.toValue)),
    ("summary", .object [("enrolled", .int b.enrolled.length), ("skipped", .int b.skipped.length)])]

structure Candidate where
  name : Value
  lead : Int

def openEach (c : ZonedCall) (name : Value) (pipeline : Int) (skipExisting : Bool) (note : Value) :
    List Candidate → Transaction (List Entry × List Skip)
  | [] => pure ([], [])
  | l :: leads => do
    match (← get).activeEntryIn? l.lead pipeline, skipExisting with
    | some e, true =>
      let (entries, skips) ← openEach c name pipeline skipExisting note leads
      return (entries, ⟨l.name, e.id⟩ :: skips)
    | _, _ =>
      let e ← refusingEntry l.name name (openRecorded c l.name l.lead pipeline note true)
      let (entries, skips) ← openEach c name pipeline skipExisting note leads
      return (e :: entries, skips)

def distinct (seen : List Value) : List Value → Except Fault (List Value)
  | [] => .ok []
  | v :: vs =>
    if !v.isKey then .error (.broken .wrongKind)
    else if seen.any v.same then distinct seen vs
    else (distinct (v :: seen) vs).map (v :: ·)

def candidates (names : List Value) (s : Store) : Except Fault (List Candidate) := do
  Store.checkVariables names.length
  let ids ← names.mapM Store.rowId?
  let found := s.leads.filter fun l => ids.contains (some l.id)
  -- A text finds the row of a lead, and is refused all the same.
  names.mapM fun name =>
    match found.find? fun l => name.same (.int l.id) with
    | some l => .ok ⟨name, l.id⟩
    | none => .error (.refused (.notFound "Lead" name))

def enrollMany (c : ZonedCall) (leads pipeline : Value) (skipExisting : Bool) (note : Value) :
    Operation Bulk := do
  let names ← reading fun _ => do distinct [] (← leads.elements)
  let p ← reading (enrollable pipeline)
  if names.isEmpty then return ⟨[], []⟩
  let leads ← reading (candidates names)
  let keys := names.map fun name => LockKey.entry name pipeline
  let (entries, skips) ←
    holdingKeys keys c.wait (commit (openEach c pipeline p.id skipExisting note leads))
  let views ← reading fun s => entries.mapM (s.view c.window c.now)
  return ⟨views, skips⟩

end StageGate.Enrollment
