import StageGate.Lock.Wait
import StageGate.Proofs.Locks
import StageGate.Proofs.Outcome

/-!
This module contains what waiting for locks comes to: they are taken as if the table had been free of whoever waits, and
a wait that fails leaves the table as it was.
-/

namespace StageGate

/-! ## Waits -/

namespace Fault

def IsBroken (e : Fault) : Prop :=
  ∃ b, e = .broken b

@[simp]
theorem isBroken_broken (b : Breakdown) : IsBroken (.broken b) :=
  ⟨b, rfl⟩

end Fault

namespace Wait

theorem ends_checkLength (seconds : Binary64) : Ends Fault.IsBroken (checkLength seconds) := by
  unfold checkLength
  split
  . simp
  . simp

theorem ends_orElse (x : Option Binary64) (b : Breakdown) : Ends Fault.IsBroken (Value.toFloat.orElse x b) := by
  unfold Value.toFloat.orElse
  split
  . simp
  . simp

theorem ends_toFloat (v : Value) : Ends Fault.IsBroken v.toFloat := by
  unfold Value.toFloat
  split
  . simp
  . apply ends_orElse
  . split
    . simp
    . apply ends_orElse

theorem ends_lt (v : Value) : Ends Fault.IsBroken (v.lt (.int 0)) := by
  unfold Value.lt Value.magnitudes
  split
  . simp
  . simp
  . simp_all
  . split <;> simp

theorem ends_check (w : Wait) : Ends Fault.IsBroken w.check := by
  unfold check
  split
  . simp
  . simp only [ends_bind, ends_lt, true_and]
    intro negative _
    split
    . simp
    . split <;> simp [ends_toFloat, ends_checkLength]

theorem eq_null_of_left {wait left : Wait} (h : wait.left = .ok left) : left = .null ↔ wait = .null := by
  unfold Wait.left at h
  split at h
  . cases h
    simp
  . cases h
  . next hnull _ =>
    obtain ⟨seconds, -, h⟩ := bind_eq_ok.mp h
    cases h
    apply iff_of_false _ hnull
    split <;> simp

end Wait

/-! ## One lock -/

namespace LockTable

section

variable {table taken : LockTable} {owner : Owner} {key : LockKey} {keys : List LockKey} {waiter : Waiter}
  {wait left : Wait} {e : Fault}

def take (table : LockTable) (owner : Owner) (key : LockKey) (waiter : Waiter) (wait : Wait) :
    Except Fault LockTable := do
  if !key.isUsable then throw (.broken .wrongKind)
  wait.check
  match table.acquire? owner key with
  | some taken => return taken
  | none => throw (waiter.fault wait)

/-- The outcome of a wait that leaves the table alone if it fails. -/
def orSame (table : LockTable) : Except Fault LockTable → Except Fault Unit × LockTable
  | .ok taken => (.ok (), taken)
  | .error e => (.error e, table)

@[simp]
theorem orSame_eq_ok {x : Except Fault LockTable} : table.orSame x = (.ok (), taken) ↔ x = .ok taken := by
  cases x <;> simp [orSame]

theorem ends_orSame {P : Fault → Prop} {x : Except Fault LockTable} : Ends P (table.orSame x).1 ↔ Ends P x := by
  cases x <;> simp [orSame]

theorem enter_eq : table.enter owner key waiter wait = table.orSame (table.take owner key waiter wait) := by
  have hacquire : (table.checkout key).lock? owner key = table.acquire? owner key := rfl
  unfold enter take
  dsimp only
  rw [hacquire]
  cases key.isUsable with
  | false => rfl
  | true =>
    cases wait.check with
    | error e => simp [orSame, checkin_checkout, bind, Except.bind]
    | ok _ =>
      cases table.acquire? owner key with
      | some taken => rfl
      | none => simp [orSame, checkin_checkout, bind, Except.bind, throw, throwThe, MonadExceptOf.throw]

theorem acquire?_of_take (h : table.take owner key waiter wait = .ok taken) :
    table.acquire? owner key = some taken := by
  unfold take at h
  cases hkey : key.isUsable with
  | false =>
    rw [hkey] at h
    cases h
  | true =>
    simp only [hkey, Bool.not_true, Bool.false_eq_true, ↓reduceIte, bind_eq_ok] at h
    obtain ⟨_, -, h⟩ := h
    split at h
    . next ht =>
      cases h
      exact ht
    . cases h

theorem acquireAll_of_take (h : table.take owner key waiter wait = .ok taken) :
    acquireAll owner [key] table = .ok taken := by
  unfold acquireAll
  rw [acquire?_of_take h]
  rfl

theorem release_of_take (h : table.take owner key waiter wait = .ok taken) : taken.release owner key = table :=
  release_of_acquire? (acquire?_of_take h)

/-! ## Several locks -/

def takeAll (table : LockTable) (owner : Owner) (keys : List LockKey) (wait : Wait) : Except Fault LockTable := do
  let left ← wait.left
  if !LockKey.areOrdered keys then throw (.broken .wrongKind)
  if keys.isEmpty then return table
  left.check
  match acquireAll owner (LockKey.sorted keys) table with
  | .ok taken => return taken
  | .error key => throw (key.waiter.fault wait)

theorem take_eq (hkey : key.isUsable) (hcheck : wait.check = .ok ()) :
    table.take owner key waiter wait =
      match table.acquire? owner key with
      | some taken => .ok taken
      | none => .error (waiter.fault wait) := by
  unfold take
  rw [hkey, hcheck]
  cases table.acquire? owner key <;> rfl

theorem takeAll_eq (hkeys : LockKey.areOrdered keys) (hleft : wait.left = .ok left)
    (hcheck : keys ≠ [] → left.check = .ok ()) :
    table.takeAll owner keys wait =
      (acquireAll owner (LockKey.sorted keys) table).mapError (·.waiter.fault wait) := by
  unfold takeAll
  rw [hleft]
  cases keys with
  | nil => rfl
  | cons key keys =>
    cases acquireAll owner (LockKey.sorted (key :: keys)) table <;>
      simp [hkeys, hcheck (List.cons_ne_nil _ _), bind, Except.bind, pure, Except.pure, throw, throwThe,
        MonadExceptOf.throw, Except.mapError]

theorem acquireAll_of_takeAll (h : table.takeAll owner keys wait = .ok taken) :
    acquireAll owner (LockKey.sorted keys) table = .ok taken := by
  unfold takeAll at h
  obtain ⟨left, -, h⟩ := bind_eq_ok.mp h
  cases hordered : LockKey.areOrdered keys
  . simp [hordered, bind, Except.bind, throw, throwThe, MonadExceptOf.throw] at h
  cases keys with
  | nil => simpa [hordered, LockKey.sorted, acquireAll, pure, Except.pure, bind, Except.bind] using h
  | cons key keys =>
    simp only [hordered, Bool.not_true, Bool.false_eq_true, ↓reduceIte, List.isEmpty_cons] at h
    obtain ⟨-, -, h⟩ := bind_eq_ok.mp h
    cases ha : acquireAll owner (LockKey.sorted (key :: keys)) table with
    | ok t => simpa [ha, bind, Except.bind, pure, Except.pure] using h
    | error k => simp [ha, throw, throwThe, MonadExceptOf.throw] at h

theorem releaseAll_of_takeAll (h : table.takeAll owner keys wait = .ok taken) :
    taken.releaseAll owner (LockKey.sorted keys) = table :=
  releaseAll_of_acquireAll (acquireAll_of_takeAll h)

/-- However far the waiting comes, the releases that follow a failure lead back to where it began. -/
theorem enterEach_of_check (hkeys : ∀ key ∈ keys, key.isUsable) (hcheck : left.check = .ok ())
    (hnull : left = .null ↔ wait = .null) :
    enterEach owner wait left keys table =
      table.orSame ((acquireAll owner keys table).mapError (·.waiter.fault wait)) := by
  induction keys generalizing table with
  | nil => rfl
  | cons key keys ih =>
    rw [List.forall_mem_cons] at hkeys
    unfold enterEach acquireAll
    rw [enter_eq, take_eq hkeys.1 hcheck]
    cases ht : table.acquire? owner key with
    | none =>
      by_cases hleft : left = .null
      . simp [orSame, Except.mapError, Waiter.fault, hleft, hnull.mp hleft]
      . simp [orSame, Except.mapError, Waiter.fault]
    | some taken =>
      simp only [orSame]
      rw [ih hkeys.2]
      cases acquireAll owner keys taken with
      | ok all => rfl
      | error k => simp [orSame, Except.mapError, release_of_acquire? ht]

theorem enterEach_of_broken (hkeys : ∀ key ∈ keys, key.isUsable) (hnonempty : keys ≠ [])
    (hcheck : left.check = .error e) : enterEach owner wait left keys table = (.error e, table) := by
  obtain ⟨b, rfl⟩ := Wait.ends_check left e hcheck
  cases keys with
  | nil => exact absurd rfl hnonempty
  | cons key keys =>
    have htake : table.take owner key key.waiter left = .error (.broken b) := by
      unfold take
      rw [hkeys key List.mem_cons_self, hcheck]
      rfl
    unfold enterEach
    rw [enter_eq, htake]
    rfl

theorem isUsable_of_mem_sorted (h : LockKey.areOrdered keys) : ∀ key ∈ LockKey.sorted keys, key.isUsable := by
  unfold LockKey.areOrdered at h
  simp only [Bool.and_eq_true, List.all_eq_true] at h
  exact fun key hkey => h.1 key (LockKey.mem_of_mem_sorted hkey)

theorem sorted_ne_nil (h : keys ≠ []) : LockKey.sorted keys ≠ [] := by
  obtain ⟨key, hkey⟩ := List.exists_mem_of_ne_nil keys h
  intro hnil
  have hmem := LockKey.mem_id_sorted.mpr (List.mem_map_of_mem (f := LockKey.id) hkey)
  rw [hnil] at hmem
  cases hmem

theorem enterAll_eq : table.enterAll owner keys wait = table.orSame (table.takeAll owner keys wait) := by
  unfold enterAll
  cases hleft : wait.left with
  | error e =>
    unfold takeAll
    rw [hleft]
    rfl
  | ok left =>
    cases hkeys : LockKey.areOrdered keys with
    | false =>
      unfold takeAll
      rw [hleft, hkeys]
      rfl
    | true =>
      have husable := isUsable_of_mem_sorted hkeys
      by_cases hnil : keys = []
      . subst hnil
        rw [takeAll_eq hkeys hleft fun h => absurd rfl h]
        rfl
      . cases hcheck : left.check with
        | ok _ =>
          rw [takeAll_eq hkeys hleft fun _ => hcheck]
          exact enterEach_of_check husable hcheck (Wait.eq_null_of_left hleft)
        | error e =>
          have htake : table.takeAll owner keys wait = .error e := by
            unfold takeAll
            rw [hleft, hkeys]
            simp [hnil, hcheck, bind, Except.bind]
          rw [htake]
          exact enterEach_of_broken husable (sorted_ne_nil hnil) hcheck

end

end LockTable

end StageGate
