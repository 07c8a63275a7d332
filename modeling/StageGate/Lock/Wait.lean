import StageGate.Lock
import StageGate.Value.Arithmetic

/-!
This module contains the waiting for locks. Nothing is released while one owner waits, so a key that
another owner holds is refused once the time is up, and never given when the wait has no end.
-/

namespace StageGate

/-- The seconds to wait for a lock, or null to wait without end. -/
abbrev Wait := Value

namespace Wait

def checkLength (seconds : Binary64) : Except Fault Unit :=
  if (Nat.pow 2 63 * Binary64.one : Nat) ≤ seconds.units * Nat.pow 10 9 then
    .error (.broken .tooLarge)
  else
    .ok ()

def check (w : Wait) : Except Fault Unit :=
  match w with
  | .null => .ok ()
  | w => do
    if ← w.lt (.int 0) then return
    match w with
    | .float .nan => throw (.broken .notADuration)
    | .float (.infinite _) => throw (.broken .tooLarge)
    | .decimal _ => throw (.broken .wrongKind)
    | w => checkLength (← w.toFloat)

def left (w : Wait) : Except Fault Wait :=
  match w with
  | .null => .ok .null
  | .decimal _ => .error (.broken .wrongKind)
  | w => do
    let seconds ← w.toFloat
    return if seconds.le .zero then .int 0 else .float seconds

end Wait

structure Waiter where
  lead : Value
  pipeline : Value
  stage : Value

def LockKey.waiter : LockKey → Waiter
  | .entry lead pipeline => ⟨lead, pipeline, .null⟩
  | .stage id => ⟨.null, .null, id⟩

def Waiter.fault (w : Waiter) : Wait → Fault
  | .null => .broken .stuck
  | seconds => .refused (.timedOut w.lead w.pipeline seconds w.stage)

namespace LockTable

/--
Waits for a lock. It is in the table in the meantime, so whoever waits in vain, or cannot even wait, has to take it out
again.
-/
def enter (table : LockTable) (owner : Owner) (key : LockKey) (waiter : Waiter) (wait : Wait) :
    Except Fault Unit × LockTable :=
  if !key.isUsable then (.error (.broken .wrongKind), table)
  else
    let table := table.checkout key
    match wait.check, table.lock? owner key with
    | .ok (), some taken => (.ok (), taken)
    | .ok (), none => (.error (waiter.fault wait), table.checkin key)
    | .error e, _ => (.error e, table.checkin key)

/-- Waits for locks one after the other. Those that it has are given back, the last one first, when a wait fails. -/
def enterEach (owner : Owner) (wait left : Wait) : List LockKey → LockTable → Except Fault Unit × LockTable
  | [], table => (.ok (), table)
  | key :: keys, table =>
    match table.enter owner key key.waiter left with
    -- What is told is how long all of the locks may take together.
    | (.error (.refused _), table) => (.error (key.waiter.fault wait), table)
    | (.error e, table) => (.error e, table)
    | (.ok (), table) =>
      match enterEach owner wait left keys table with
      | (.ok (), table) => (.ok (), table)
      | (.error e, table) => (.error e, table.release owner key)

def enterAll (table : LockTable) (owner : Owner) (keys : List LockKey) (wait : Wait) :
    Except Fault Unit × LockTable :=
  match wait.left with
  | .error e => (.error e, table)
  | .ok left =>
    if !LockKey.areOrdered keys then (.error (.broken .wrongKind), table)
    else enterEach owner wait left (LockKey.sorted keys) table

end LockTable

end StageGate
