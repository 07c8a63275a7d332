import StageGate.Time.Days
import StageGate.Time.Stamp

/-!
This module contains the time that an entry has spent in its stage and how well it keeps the deadline of
the stage. Everything is computed from one instant, which is given.
-/

namespace StageGate

inductive Bucket where
  | green
  | yellow
  | red
  deriving DecidableEq

namespace Bucket

def all : List Bucket := [.green, .yellow, .red]

def name : Bucket → String
  | .green => "green"
  | .yellow => "yellow"
  | .red => "red"

end Bucket

namespace Instant

/-- The seconds from `since` to `now`, as a binary64 number of units; `since` is not after `now`. -/
def secondsUnits (since now : Instant) : Nat :=
  Binary64.nearest ((now.micros - since.micros).toNat * Binary64.one) microsPerSecond

def wholeDays (since now : Instant) : Nat :=
  secondsUnits since now / (86400 * Binary64.one)

end Instant

structure Standing where
  overdue : Value
  bucket : Bucket
  deriving DecidableEq

namespace Standing

def isSenseless : Value → Except Fault Bool
  | .null => .ok true
  | deadline => deadline.lt (.int 0)

def of (elapsed deadline window : Value) : Except Fault Standing := do
  if ← isSenseless deadline then
    throw (.refused (.misconfigured ("SLA deadline must be >= 0, got " ++ deadline.shown) "" []))
  let overdue ← (← elapsed.sub deadline).positivePart
  if ← Value.lt (.int 0) overdue then return ⟨overdue, .red⟩
  -- A deadline that is not missed is pressing once no more days than the window remain.
  let remaining ← deadline.sub elapsed
  return ⟨overdue, if ← remaining.atMost window then .yellow else .green⟩

end Standing

structure Health where
  elapsed : Nat
  deadline : Value
  standing : Standing
  remaining : Value
  dueAt : Instant
  deriving DecidableEq

namespace Health

def bucket (h : Health) : Bucket :=
  h.standing.bucket

def overdue (h : Health) : Value :=
  h.standing.overdue

def of (entered now : Instant) (deadline window : Value) : Except Fault Health := do
  let elapsed := entered.wholeDays now
  let standing ← Standing.of (.int elapsed) deadline window
  let dueAt ← entered.addDays deadline
  return ⟨elapsed, deadline, standing, ← deadline.sub (.int elapsed), dueAt⟩

def toValue (h : Health) : Value :=
  .object [("elapsed_days", .int h.elapsed), ("overdue_days", h.overdue),
    ("days_remaining", h.remaining), ("deadline_days", h.deadline),
    ("bucket", .text h.bucket.name), ("due_at", .text h.dueAt.zonedText)]

def metrics (h : Health) (enrolled now : Instant) : Fields :=
  [("days_in_stage", .int h.elapsed), ("overdue_days", h.overdue),
    ("days_remaining", h.remaining), ("sla_deadline_days", h.deadline),
    ("days_since_enrolled", .int (enrolled.wholeDays now)), ("health", .text h.bucket.name)]

end Health

namespace Stamp

def instant (s : Stamp) : Except Fault Instant :=
  match s.instant? with
  | some t => .ok t
  | none => .error (.broken .tooLarge)

@[simp]
theorem instant_universal (t : Instant) : (universal t).instant = .ok t :=
  rfl

end Stamp

end StageGate
