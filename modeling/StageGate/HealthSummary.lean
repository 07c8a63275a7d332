import StageGate.Service

/-!
This module contains the summary of the health of a pipeline: how its active entries keep their deadlines
at one instant. The entries are gone through once, to count them, in all and in each stage, to list what is
overdue, to add up their days, and to refresh what they remember of their health.
-/

namespace StageGate

structure Counts where
  green : Nat
  yellow : Nat
  red : Nat
  deriving DecidableEq

namespace Counts

def nothing : Counts :=
  ⟨0, 0, 0⟩

def of (c : Counts) : Bucket → Nat
  | .green => c.green
  | .yellow => c.yellow
  | .red => c.red

def add (c : Counts) : Bucket → Counts
  | .green => { c with green := c.green + 1 }
  | .yellow => { c with yellow := c.yellow + 1 }
  | .red => { c with red := c.red + 1 }

def toFields (c : Counts) : Fields :=
  Bucket.all.map fun b => (b.name, .int (c.of b))

end Counts

structure StageRow where
  stage : Stage
  active : Nat
  counts : Counts
  deriving DecidableEq

namespace StageRow

def blank (stage : Stage) : StageRow :=
  ⟨stage, 0, .nothing⟩

def add (stage : Int) (b : Bucket) (r : StageRow) : StageRow :=
  if r.stage.id = stage then { r with active := r.active + 1, counts := r.counts.add b } else r

def toValue (r : StageRow) : Value :=
  .object ([("stage_id", .int r.stage.id), ("name", .text r.stage.name), ("order", r.stage.order),
    ("active", .int r.active)] ++ r.counts.toFields)

end StageRow

structure Overdue where
  entry : Int
  lead : Int
  stage : Int
  stageName : String
  overdue : Value
  elapsed : Nat
  deriving DecidableEq

namespace Overdue

def isWorse (a b : Overdue) : Bool :=
  b.overdue.isBelow a.overdue || (!a.overdue.isBelow b.overdue && a.entry ≤ b.entry)

def toValue (o : Overdue) : Value :=
  .object [("entry_id", .int o.entry), ("lead_id", .int o.lead), ("stage_id", .int o.stage),
    ("stage_name", .text o.stageName), ("overdue_days", o.overdue), ("elapsed_days", .int o.elapsed)]

end Overdue

/-- What is known of the entries that have been gone through. -/
structure Tally where
  counts : Counts
  stages : List StageRow
  overdue : List Overdue
  days : Nat
  deriving DecidableEq

namespace Tally

def start (stages : List Stage) : Tally :=
  ⟨.nothing, stages.map .blank, [], 0⟩

def add (t : Tally) (e : Entry) (stage : Stage) (h : Health) : Tally := {
  counts := t.counts.add h.bucket
  stages := t.stages.map (·.add e.stage h.bucket)
  overdue :=
    if Value.isBelow (.int 0) h.overdue then
      t.overdue ++ [⟨e.id, e.lead, e.stage, stage.name, h.overdue, h.elapsed⟩]
    else
      t.overdue
  days := t.days + h.elapsed }

end Tally

structure HealthSummary where
  pipeline : Int
  asOf : Stamp
  active : Nat
  tally : Tally
  deriving DecidableEq

namespace HealthSummary

def compliance (active red : Nat) : Binary64 :=
  if active = 0 then .ofInt 100
  else ((Binary64.ofRatio false (active - red) active).mul (.ofInt 100)).roundToTenths

def averageDays (active days : Nat) : Binary64 :=
  if active = 0 then .zero else (Binary64.ofRatio false days active).roundToTenths

def toValue (h : HealthSummary) : Value :=
  .object [("pipeline_id", .int h.pipeline), ("as_of", .text h.asOf.text), ("active", .int h.active),
    ("counts", .object h.tally.counts.toFields), ("by_stage", .list (h.tally.stages.map StageRow.toValue)),
    ("overdue", .list ((Listing.inOrder Overdue.isWorse h.tally.overdue).map Overdue.toValue)),
    ("sla_compliance_pct", .float (compliance h.active h.tally.counts.red)),
    ("avg_days_in_stage", .float (averageDays h.active h.tally.days))]

/-- Going through entries. What one of them remembers is changed before the next one is looked at. -/
def goThrough (window : Value) (now : Stamp) (t : Tally) : List Entry → Draft Tally
  | [] => pure t
  | e :: es => do
    let now' ← now.instant
    let stage ← Draft.look fun s => Store.follow (s.stage? e.stage)
    let h ← Health.of e.enteredAt now' stage.deadline window
    modify (·.putEntry (e.remember h.bucket))
    goThrough window now (t.add e stage h) es

def draft (window pipeline : Value) (now : Stamp) : Draft HealthSummary := do
  let p ← Draft.look (·.pipeline pipeline)
  let s ← get
  let entries := s.entries.filter fun e => e.pipeline = p.id && e.isActive
  return ⟨p.id, now, entries.length, ← goThrough window now (.start (s.stagesOf p.id)) entries⟩

/-- The rows of the stages are in their order from the start, but they are sorted, if that can be done. -/
def sorted (h : HealthSummary) : Except Fault HealthSummary := do
  let _ ← Value.sort (h.tally.stages.map (·.stage.order))
  return h

end HealthSummary

end StageGate
