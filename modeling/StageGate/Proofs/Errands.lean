import StageGate.Proofs.Unhindered

/-!
This module contains which locks the operations on entries take, and in which order: all entries of a batch or
of a transfer as they are sorted, and for a move the entry, and then the stage if its capacity is limited.
-/

namespace StageGate

open Operation

/--
What an operation has to lock. The keys are taken as they are sorted. After them a move looks at the stage that
it is to enter.
-/
structure Errand where
  keys : List LockKey
  target : Option Value

namespace Errand

/-- The lock of the stage that is to be entered, if its capacity is limited. -/
def capacityKey? (target : Value) (s : Store) : Except Fault (Option LockKey) := do
  return (← Advancement.cappedStage? target s).map fun stage => .stage (.int stage.id)

theorem of_capacityKey? {target : Value} {s : Store} {key? : Option LockKey} (h : capacityKey? target s = .ok key?) :
    ∃ stage? : Option Stage, Advancement.cappedStage? target s = .ok stage? ∧
      key? = stage?.map fun stage => .stage (.int stage.id) := by
  obtain ⟨stage?, hstage, h⟩ := bind_eq_ok.mp h
  cases h
  exact ⟨stage?, hstage, rfl⟩

/-- The key of that stage, and none if the stage cannot be looked up. -/
def limitKeys (target : Value) (s : Store) : List LockKey :=
  match capacityKey? target s with
  | .ok key? => key?.toList
  | .error _ => []

/-- The keys in the order in which they are taken, while nobody changes the store. -/
def needs (e : Errand) (s : Store) : List LockKey :=
  LockKey.sorted e.keys ++ e.target.elim [] (limitKeys · s)

/-- Where a stage may come later, the keys are those of entries in the store, whose leads have numbers. -/
def IsOfEntries (e : Errand) : Prop :=
  e.target ≠ none → ∀ key ∈ e.keys, key.id.IsNumbered

end Errand

namespace Command

/-- What a command has to lock, if it locks anything and does not fail before. -/
def errand? (s : Store) : Command → Except Fault (Option Errand)
  | .enroll _ lead pipeline _ => do
    let _ ← s.lead lead
    let _ ← Enrollment.enrollable pipeline s
    return some ⟨[.entry lead pipeline], none⟩
  | .enrollMany _ leads pipeline _ _ => do
    let names ← Enrollment.distinct [] (← leads.elements)
    let _ ← Enrollment.enrollable pipeline s
    if names.isEmpty then return none
    let _ ← Enrollment.candidates names s
    return some ⟨names.map (.entry · pipeline), none⟩
  | .advance _ entry stage _ _ => do
    let e ← s.entry entry
    return some ⟨[.entry (.int e.lead) (.int e.pipeline)], some stage⟩
  | .archive _ entry _ => do
    let e ← s.entry entry
    return some ⟨[.entry (.int e.lead) (.int e.pipeline)], none⟩
  | .transfer _ entry pipeline _ _ => do
    let e ← s.entry entry
    let _ ← Enrollment.enrollable pipeline s
    return some ⟨[.entry (.int e.lead) (.int e.pipeline), .entry (.int e.lead) pipeline], none⟩
  | _ => .ok none

theorem isOfEntries_of_errand? {k : Command} {s : Store} {e : Errand} (h : k.errand? s = .ok (some e)) :
    e.IsOfEntries := by
  unfold Errand.IsOfEntries
  cases k <;> simp only [errand?, bind_eq_ok, pure, Except.pure, Except.ok.injEq, Option.some.injEq, reduceCtorEq] at h
  case enroll =>
    obtain ⟨-, -, -, -, rfl⟩ := h
    exact fun htarget => absurd rfl htarget
  case enrollMany caller leads pipeline skipExisting note =>
    obtain ⟨-, -, names, -, -, -, h⟩ := h
    split at h
    . cases h
    . obtain ⟨-, -, h⟩ := bind_eq_ok.mp h
      cases h
      exact fun htarget => absurd rfl htarget
  case advance =>
    obtain ⟨e, -, rfl⟩ := h
    exact fun _ => List.forall_mem_singleton.mpr ⟨.ofInt e.lead, rfl⟩
  case archive =>
    obtain ⟨-, -, rfl⟩ := h
    exact fun htarget => absurd rfl htarget
  case transfer =>
    obtain ⟨-, -, -, -, rfl⟩ := h
    exact fun htarget => absurd rfl htarget

end Command

/-! ## Keys that can be taken, and keys that cannot -/

def LockKey.Names (key : LockKey) (w : Waiter) : Prop :=
  match key with
  | .entry lead pipeline => w = ⟨lead, pipeline, .null⟩
  | .stage id => w.stage = id

theorem LockKey.names_waiter (key : LockKey) : key.Names key.waiter := by
  cases key <;> rfl

theorem LockKey.isUsable_of_areOrdered {keys : List LockKey} (h : areOrdered keys) : ∀ key ∈ keys, key.isUsable := by
  unfold areOrdered at h
  simp only [Bool.and_eq_true, List.all_eq_true] at h
  exact h.1

namespace Operation

section

variable {α : Type} {s : Service} {key : LockKey} {keys : List LockKey} {waiter : Waiter} {wait left : Wait}
  {body : Operation α}

theorem holdingKey_of_taken (hkey : key.isUsable) (hcheck : wait.check = .ok ())
    (ht : LockTable.acquire? .service key s.locks.table = none) :
    holdingKey key waiter wait body s = (.error (waiter.fault wait), s) := by
  unfold holdingKey holding
  dsimp only
  rw [LockTable.enter_eq, LockTable.take_eq hkey hcheck, ht]
  rfl

/-- What is done with a lock that can be taken is done as without it, and the locks are as before in the end. -/
theorem holdingKey_of_free {r : Except Fault α} {s' : Service} {taken : LockTable} (hkey : key.isUsable)
    (hcheck : wait.check = .ok ()) (ht : LockTable.acquire? .service key s.locks.table = some taken)
    (hbody : body { s with locks := { s.locks with table := taken } } =
      (r, { s' with locks := { s.locks with table := taken } })) :
    holdingKey key waiter wait body s = (r, { s' with locks := s.locks }) := by
  unfold holdingKey holding
  dsimp only
  rw [LockTable.enter_eq, LockTable.take_eq hkey hcheck, ht]
  simp [LockTable.orSame, hbody, LockTable.release_of_acquire? ht]

theorem holdingKeys_of_taken (hkeys : LockKey.areOrdered keys) (hleft : wait.left = .ok left)
    (hcheck : left.check = .ok ())
    (ht : LockTable.acquireAll .service (LockKey.sorted keys) s.locks.table = .error key) :
    holdingKeys keys wait body s = (.error (key.waiter.fault wait), s) := by
  unfold holdingKeys holding
  dsimp only
  rw [LockTable.enterAll_eq, LockTable.takeAll_eq hkeys hleft (fun _ => hcheck), ht]
  rfl

theorem holdingKeys_of_free {r : Except Fault α} {s' : Service} {taken : LockTable} (hkeys : LockKey.areOrdered keys)
    (hleft : wait.left = .ok left) (hcheck : left.check = .ok ())
    (ht : LockTable.acquireAll .service (LockKey.sorted keys) s.locks.table = .ok taken)
    (hbody : body { s with locks := { s.locks with table := taken } } =
      (r, { s' with locks := { s.locks with table := taken } })) :
    holdingKeys keys wait body s = (r, { s' with locks := s.locks }) := by
  unfold holdingKeys holding
  dsimp only
  rw [LockTable.enterAll_eq, LockTable.takeAll_eq hkeys hleft (fun _ => hcheck), ht]
  simp [LockTable.orSame, Except.mapError, hbody, LockTable.releaseAll_of_acquireAll ht]

theorem bind_of_read {β : Type} {g : Store → Except Fault β} {b : β} (h : g s.store = .ok b) (f : β → Operation α) :
    (reading g >>= f) s = f b s := by
  apply bind_of_ok
  rw [reading_eq, h]

end

end Operation

end StageGate
