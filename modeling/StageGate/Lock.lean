import StageGate.Fault
import StageGate.Value.Equality

/-!
This module contains the table of locks. A lock is in it while somebody uses it, which is from before the lock is
tried until after it is given back or given up. It is held by one owner, who may take it again and has to give it back
as often.
-/

namespace StageGate

/--
What a lock stands for: the entries of a lead in a pipeline, or the capacity of a stage. Leads, pipelines
and stages are named by the values that a caller gives, of which equal ones make up the same lock.
-/
inductive LockKey where
  | entry (lead pipeline : Value)
  | stage (id : Value)
  deriving DecidableEq

inductive LockPart where
  | number (m : Magnitude)
  | text (s : String)
  | nothing
  deriving DecidableEq

namespace LockPart

def of (v : Value) : LockPart :=
  match v.magnitude?, v with
  | some m, _ => .number m
  | none, .text s => .text s
  | none, _ => .nothing

def rank : LockPart → Nat
  | .number .nothing => 1
  | .number _ => 0
  | .text _ => 2
  | .nothing => 3

def lt : LockPart → LockPart → Bool
  | .number m, .number n => m.lt n || (m ≠ .nothing && n = .nothing)
  | .text s, .text t => s < t
  | p, q => rank p < rank q

def isComparable : LockPart → LockPart → Bool
  | .number _, .number _ | .text _, .text _ => true
  | _, _ => false

end LockPart

/-- What a lock is looked up by: two parts, of which the first says of a stage that it is one. -/
structure LockId where
  first : LockPart
  second : LockPart
  deriving DecidableEq

namespace LockId

def lt (i j : LockId) : Bool :=
  i.first.lt j.first || (i.first = j.first && i.second.lt j.second)

def isComparable (i j : LockId) : Bool :=
  if i.first = j.first then i.second = j.second || i.second.isComparable j.second
  else i.first.isComparable j.first

end LockId

namespace LockKey

def id : LockKey → LockId
  | .entry lead pipeline => ⟨.of lead, .of pipeline⟩
  | .stage s => ⟨.text "stage", .of s⟩

def isUsable : LockKey → Bool
  | .entry lead pipeline => lead.isKey && pipeline.isKey
  | .stage s => s.isKey

def insert (key : LockKey) : List LockKey → List LockKey
  | [] => [key]
  | k :: ks =>
    if key.id = k.id then key :: ks
    else if key.id.lt k.id then key :: k :: ks
    else k :: insert key ks

def sorted (keys : List LockKey) : List LockKey :=
  keys.foldr insert []

def areOrdered (keys : List LockKey) : Bool :=
  keys.all isUsable && keys.all fun k => keys.all fun l => k.id.isComparable l.id

@[simp]
theorem mem_id_insert {key : LockKey} {keys : List LockKey} {i : LockId} :
    i ∈ (insert key keys).map id ↔ i = key.id ∨ i ∈ keys.map id := by
  induction keys with
  | nil => simp [insert]
  | cons k ks ih =>
    simp only [insert]
    split
    . next h => simp [h]
    . split
      . simp
      . simp only [List.map_cons, List.mem_cons, ih]
        exact or_left_comm

@[simp]
theorem mem_id_sorted {keys : List LockKey} {i : LockId} :
    i ∈ (sorted keys).map id ↔ i ∈ keys.map id := by
  induction keys with
  | nil => simp [sorted]
  | cons key keys ih =>
    have : sorted (key :: keys) = insert key (sorted keys) := rfl
    rw [this, mem_id_insert, ih]
    simp

end LockKey

inductive Owner where
  | service
  | other (name : String)
  deriving DecidableEq

/-- A lock that its holder can take again, and then has to give back as often. -/
inductive Latch where
  | free
  | held (owner : Owner) (again : Nat)
  deriving DecidableEq

namespace Latch

def owner? : Latch → Option Owner
  | .free => none
  | .held o _ => some o

def depth : Latch → Nat
  | .free => 0
  | .held _ n => n + 1

def acquire? (owner : Owner) : Latch → Option Latch
  | .free => some (.held owner 0)
  | .held o n => if o = owner then some (.held o (n + 1)) else none

def release (owner : Owner) : Latch → Latch
  | .free => .free
  | .held o n =>
    if o = owner then
      match n with
      | 0 => .free
      | n + 1 => .held o n
    else
      .held o n

theorem release_of_acquire? {owner : Owner} {latch taken : Latch} (h : latch.acquire? owner = some taken) :
    taken.release owner = latch := by
  cases latch with
  | free =>
    cases h
    simp [release]
  | held o n =>
    by_cases ho : o = owner
    . simp only [acquire?, ho, ↓reduceIte, Option.some.injEq] at h
      simp [← h, release, ho]
    . simp [acquire?, ho] at h

end Latch

/-- A lock in the table, and how often it is used beyond the first time. -/
structure Lock where
  key : LockKey
  latch : Latch
  others : Nat
  deriving DecidableEq

abbrev LockTable := List Lock

namespace LockTable

def find? (table : LockTable) (key : LockKey) : Option Lock :=
  List.find? (·.key.id = key.id) table

def owner? (table : LockTable) (key : LockKey) : Option Owner :=
  (table.find? key).bind (·.latch.owner?)

/-- How often a lock has been taken and not given back. -/
def depth (table : LockTable) (key : LockKey) : Nat :=
  ((table.find? key).map (·.latch.depth)).getD 0

/-- How often a lock is used, by those who hold it and those who try to. -/
def count (table : LockTable) (key : LockKey) : Nat :=
  ((table.find? key).map (·.others + 1)).getD 0

def checkout (key : LockKey) : LockTable → LockTable
  | [] => [⟨key, .free, 0⟩]
  | lock :: rest =>
    if lock.key.id = key.id then { lock with others := lock.others + 1 } :: rest
    else lock :: checkout key rest

/-- A lock goes with the last one that uses it. -/
def checkin (key : LockKey) : LockTable → LockTable
  | [] => []
  | lock :: rest =>
    if lock.key.id = key.id then
      match lock.others with
      | 0 => rest
      | n + 1 => { lock with others := n } :: rest
    else
      lock :: checkin key rest

def lock? (owner : Owner) (key : LockKey) : LockTable → Option LockTable
  | [] => none
  | lock :: rest =>
    if lock.key.id = key.id then (lock.latch.acquire? owner).map ({ lock with latch := · } :: rest)
    else (lock? owner key rest).map (lock :: ·)

def unlock (owner : Owner) (key : LockKey) : LockTable → LockTable
  | [] => []
  | lock :: rest =>
    if lock.key.id = key.id then { lock with latch := lock.latch.release owner } :: rest
    else lock :: unlock owner key rest

def acquire? (owner : Owner) (key : LockKey) (table : LockTable) : Option LockTable :=
  (table.checkout key).lock? owner key

def release (owner : Owner) (key : LockKey) (table : LockTable) : LockTable :=
  (table.unlock owner key).checkin key

def releaseAll (owner : Owner) (keys : List LockKey) (table : LockTable) : LockTable :=
  keys.foldr (release owner) table

def activeKeys (table : LockTable) : List LockKey :=
  LockKey.sorted (table.map (·.key))

end LockTable

end StageGate
