import StageGate.Enrollment

/-!
This module contains the closing of entries without completing them: archiving, and the transfer of a lead
to another pipeline, which archives one entry and opens another.
-/

namespace StageGate.Closing

open Transaction Operation Enrollment

def requireOpen (e : Entry) : Except Fault Unit :=
  if e.status.canBecome .archived then .ok ()
  else .error (.refused (.notActive (.int e.id) (.text e.status.name)))

def keptReason (reason : Value) : Except Fault (Option String) := do
  if !reason.isTrue then return none
  match reason with
  | .text s =>
    let kept := Entry.cutReason s
    Column.checkText kept
    return some kept
  | .list _ => throw (.broken .unstorable)
  | _ => throw (.broken .wrongKind)

def close (c : ZonedCall) (e : Entry) (reason : Value) : Transaction Entry := do
  let closed := e.archive (← keptReason reason) c.now.reading
  putEntry closed
  return closed

def archiveRecorded (c : ZonedCall) (e : Entry) (reason : Value) : Transaction Entry := do
  requireOpen e
  let stage ← reading fun s => Store.follow (s.stage? e.stage)
  let closed ← close c e reason
  record ⟨.entry, e.id, some e.lead, some e.pipeline, .archive, c.actor,
    .archived stage.ref reason⟩ c.now.reading
  return closed

def archive (c : ZonedCall) (entry reason : Value) : Operation EntryView := do
  let e ← reading (·.entry entry)
  let key := LockKey.entry (.int e.lead) (.int e.pipeline)
  let closed ← holdingKey key key.waiter c.wait (commit (archiveRecorded c e reason))
  reading (·.view c.window c.now closed)

def transferReason (reason : Value) : String :=
  if reason.isTrue then "transferred: " ++ reason.toText else "transferred"

structure Transfer where
  source : EntryView
  target : EntryView
  deriving DecidableEq

def Transfer.toValue (t : Transfer) : Value :=
  .object [("source", t.source.toValue), ("target", t.target.toValue)]

def transferRecorded (c : ZonedCall) (e : Entry) (name : Value) (pipeline : Int) (reason note : Value) :
    Transaction (Entry × Entry) := do
  requireOpen e
  reading (requireVacant (.int e.lead) name e.lead pipeline)
  let stage ← reading fun s => Store.follow (s.stage? e.stage)
  let closed ← close c e (.text (transferReason reason))
  let (opened, first) ← openEntry c (.int e.lead) e.lead pipeline note (some e.id)
  record ⟨.entry, e.id, some e.lead, some e.pipeline, .transfer, c.actor,
    .transferred ⟨e.id, .int e.pipeline, stage.ref⟩ ⟨opened.id, name, first.ref⟩ reason⟩ c.now.reading
  return (closed, opened)

def transfer (c : ZonedCall) (entry pipeline reason note : Value) : Operation Transfer := do
  let e ← reading (·.entry entry)
  let p ← reading (enrollable pipeline)
  let lead := Value.int e.lead
  let keys := [LockKey.entry lead (.int e.pipeline), LockKey.entry lead pipeline]
  let (closed, opened) ←
    holdingKeys keys c.wait
      (commit (refusingEntry lead pipeline (transferRecorded c e pipeline p.id reason note)))
  reading fun s => do
    return ⟨← s.view c.window c.now closed, ← s.view c.window c.now opened⟩

end StageGate.Closing
