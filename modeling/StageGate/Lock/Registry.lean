import StageGate.Lock.Wait

/-!
This module contains locks that are held over several steps: each hold has an owner and one key or several, which are
released together.
-/

namespace StageGate

structure Hold where
  owner : Owner
  keys : List LockKey
  deriving DecidableEq

structure Registry where
  table : LockTable
  holds : List Hold
  deriving DecidableEq

namespace Registry

def empty : Registry :=
  ⟨[], []⟩

/-- What becomes of waiting for some keys: they are held if it succeeds. -/
def note (r : Registry) (owner : Owner) (keys : List LockKey) :
    Except Fault Unit × LockTable → Except Fault Unit × Registry
  | (.ok (), table) => (.ok (), ⟨table, ⟨owner, keys⟩ :: r.holds⟩)
  | (.error e, table) => (.error e, { r with table })

def tryHold (r : Registry) (owner : Owner) (key : LockKey) (waiter : Waiter) (wait : Wait) :
    Except Fault Unit × Registry :=
  r.note owner [key] (r.table.enter owner key waiter wait)

def tryHoldMany (r : Registry) (owner : Owner) (keys : List LockKey) (wait : Wait) :
    Except Fault Unit × Registry :=
  r.note owner (LockKey.sorted keys) (r.table.enterAll owner keys wait)

def hold (r : Registry) (owner : Owner) (key : LockKey) (waiter : Waiter) (wait : Wait) :
    Except Fault Registry :=
  (r.tryHold owner key waiter wait).1.map fun _ => (r.tryHold owner key waiter wait).2

def holdMany (r : Registry) (owner : Owner) (keys : List LockKey) (wait : Wait) :
    Except Fault Registry :=
  (r.tryHoldMany owner keys wait).1.map fun _ => (r.tryHoldMany owner keys wait).2

/-- Ends one of the holds, which need not be the newest. -/
def finish? (r : Registry) (i : Nat) : Option Registry := do
  let hold ← r.holds[i]?
  return ⟨r.table.releaseAll hold.owner hold.keys, r.holds.eraseIdx i⟩

def release? (r : Registry) (owner : Owner) : Option Registry := do
  r.finish? (← r.holds.findIdx? (·.owner = owner))

def releaseEverything (r : Registry) : Registry :=
  ⟨r.holds.foldl (fun table h => table.releaseAll h.owner h.keys) r.table, []⟩

end Registry

end StageGate
