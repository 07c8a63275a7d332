import StageGate.Criterion.Cache
import StageGate.Lock.Registry
import StageGate.Store.Draft

/-!
This module contains the service: the store with the cache of compiled criteria and the locks. Its
operations hold the locks they need while they work, and change the store by one transaction at the end.
-/

namespace StageGate

structure Service where
  store : Store
  cache : CriteriaCache
  locks : Registry

def Service.empty : Service :=
  ⟨.empty, [], .empty⟩

structure Environment where
  now : Instant
  window : Value
  wait : Wait

/-- What an operation on entries is called with. Rows keep what the clock of the caller shows, whatever its zone. -/
structure ZonedCall where
  actor : Value
  now : Stamp
  window : Value
  wait : Wait

/-- A call of somebody whose clock keeps universal time. -/
structure Call where
  actor : Value
  now : Instant
  window : Value
  wait : Wait

namespace Call

abbrev inZone (zone : Option Int) (c : Call) : ZonedCall :=
  ⟨c.actor, ⟨c.now, zone⟩, c.window, c.wait⟩

abbrev zoned (c : Call) : ZonedCall :=
  c.inZone (some 0)

instance : Coe Call ZonedCall := ⟨zoned⟩

end Call

def Environment.call (e : Environment) (actor : Value) (now : Option Instant) (wait : Wait) : Call :=
  ⟨actor, now.getD e.now, e.window, if wait.isNull then e.wait else wait⟩

/-- An operation answers or fails, and in both cases leaves a service behind. -/
abbrev Operation := ExceptT Fault (StateM Service)

namespace Operation

def reading {α : Type} (f : Store → Except Fault α) : Operation α := do
  match f (← get).store with
  | .ok a => return a
  | .error e => throw e

def commit {α : Type} (t : Transaction α) : Operation α := do
  let s ← get
  match t.run s.store with
  | .ok (a, store) =>
    set { s with store }
    return a
  | .error e => throw e

/-- Runs a draft in a session of its own, which ends with it. -/
def settle {α : Type} (d : Draft α) : Operation α := fun s =>
  let (result, session) := (Session.opened s.store).run d
  (result, { s with store := session.closed })

/-- Runs `body` with the locks that `enter` waits for, which are released after it, whatever its outcome. -/
def holding {α : Type} (enter : LockTable → Except Fault Unit × LockTable) (release : LockTable → LockTable)
    (body : Operation α) : Operation α := fun s =>
  match enter s.locks.table with
  | (.error e, table) => (.error e, { s with locks := { s.locks with table } })
  | (.ok (), table) =>
    let (result, s') := body { s with locks := { s.locks with table } }
    (result, { s' with locks := { s'.locks with table := release s'.locks.table } })

def holdingKey {α : Type} (key : LockKey) (waiter : Waiter) (wait : Wait) (body : Operation α) :
    Operation α :=
  holding (·.enter .service key waiter wait) (·.release .service key) body

def holdingKeys {α : Type} (keys : List LockKey) (wait : Wait) (body : Operation α) : Operation α :=
  holding (·.enterAll .service keys wait) (·.releaseAll .service (LockKey.sorted keys)) body

def loadChecks (stage : Int) : Operation (List Check) := do
  let s ← get
  match s.cache.load stage (s.store.sourcesOf stage) with
  | .ok (checks, cache) =>
    set { s with cache }
    return checks
  | .error e => throw e

def forget (stage : Int) : Operation Unit :=
  modify fun s => { s with cache := s.cache.drop stage }

end Operation

end StageGate
