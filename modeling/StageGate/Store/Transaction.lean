import StageGate.Store

/-!
This module contains transactions: changes of the store that are made together or not at all. A
transaction that fails has no store to show, so nothing of what it did remains.
-/

namespace StageGate

abbrev Transaction := StateT Store (Except Fault)

namespace Transaction

def reading {α : Type} (f : Store → Except Fault α) : Transaction α := do
  f (← get)

def demand (holds : Bool) (fault : Fault) : Transaction Unit :=
  if holds then pure () else throw fault

def addPipeline (p : Pipeline) : Transaction Unit :=
  modify fun s => { s with pipelines := s.pipelines ++ [p] }

def addStage (stage : Stage) : Transaction Unit := do
  demand ((← get).seats stage) (.broken (.violated Store.orderCollision))
  modify fun s => { s with stages := s.stages ++ [stage] }

def addCriterion (c : Criterion) : Transaction Unit :=
  modify fun s => { s with criteria := s.criteria ++ [c] }

def demandAdmission (e : Entry) : Transaction Unit := do
  demand ((← get).admits e) (.broken (.violated Store.collision))

def addEntry (e : Entry) : Transaction Unit := do
  demandAdmission e
  modify (·.addEntry e)

def addFlags (r : FlagRow) : Transaction Unit :=
  modify fun s => { s with flags := s.flags ++ [r] }

def putEntry (e : Entry) : Transaction Unit := do
  demandAdmission e
  modify (·.putEntry e)

def putFlags (r : FlagRow) : Transaction Unit :=
  modify fun s => { s with flags := s.flags.map fun x => if x.id = r.id then r else x }

def putCriterion (c : Criterion) : Transaction Unit :=
  modify fun s => { s with criteria := s.criteria.map fun x => if x.id = c.id then c else x }

structure Note where
  subject : Subject
  subjectId : Int
  lead : Option Int
  pipeline : Option Int
  action : Action
  actor : Value
  change : Change

def signedBy (actor : Option String) : Except Fault String :=
  match actor with
  | some name => .ok name
  | none => .error (.broken (.violated "NOT NULL constraint failed: audit_logs.actor"))

def signature (actor : Value) : Except Fault String := do
  -- A change that nobody signed is the system's own.
  signedBy (← Column.text (actor.orElse (.text "system")))

def Note.row (n : Note) (actor : String) (time : Instant) (s : Store) : AuditRow := {
  id := Store.nextId (s.audit.map (·.id))
  subject := n.subject
  subjectId := toString n.subjectId
  lead := .ofInt? n.lead
  pipeline := .ofInt? n.pipeline
  action := n.action
  actor
  change := n.change
  writtenAt := time }

def addAudit (r : AuditRow) : Transaction Unit :=
  modify (·.addAudit r)

def record (n : Note) (time : Instant) : Transaction Unit := do
  let actor ← signature n.actor
  addAudit (n.row actor time (← get))

def refusingViolations {α : Type} (refusal : String → Refusal) (t : Transaction α) : Transaction α :=
  fun s =>
    match t s with
    | .error (.broken (.violated constraint)) => .error (.refused (refusal constraint))
    | result => result

end Transaction

end StageGate
