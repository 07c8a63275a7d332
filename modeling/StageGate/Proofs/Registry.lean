import Mathlib.Data.List.Perm.Basic
import StageGate.Command
import StageGate.Proofs.Waiting

/-!
This module contains what is true of the table of locks after any steps of any owners. Which holds are not yet released
follows from the steps alone, and the table has the locks that these holds cover, each one as often as they do.
-/

namespace StageGate

/-! ## Holds that are not yet released -/

/-- What an owner does with locks. It gives back the newest of its holds, or the hold at some place among all. -/
inductive LockStep where
  | hold (owner : Owner) (key : LockKey) (waiter : Waiter) (wait : Wait)
  | holdMany (owner : Owner) (keys : List LockKey) (wait : Wait)
  | release (owner : Owner)
  | finish (place : Nat)

namespace Hold

def covers (h : Hold) (key : LockKey) : Bool :=
  key.id ∈ h.keys.map (·.id)

/-- Whether all holds that cover a key are those of one owner. -/
def leave (holds : List Hold) (owner : Owner) (key : LockKey) : Bool :=
  holds.all fun h => !h.covers key || h.owner = owner

def sorted (h : Hold) : Hold :=
  { h with keys := LockKey.sorted h.keys }

@[simp]
theorem owner_sorted (h : Hold) : h.sorted.owner = h.owner :=
  rfl

@[simp]
theorem covers_sorted (h : Hold) (key : LockKey) : h.sorted.covers key = h.covers key := by
  unfold covers sorted
  rw [decide_eq_decide]
  exact LockKey.mem_id_sorted

theorem leave_iff {holds : List Hold} {owner : Owner} {key : LockKey} :
    leave holds owner key ↔ ∀ h ∈ holds, h.covers key → h.owner = owner := by
  unfold leave
  rw [List.all_eq_true]
  apply forall₂_congr
  intro h _
  cases h.covers key <;> simp

end Hold

/-- Leads have numbers, so the key of an entry never is one of a stage. -/
theorem LockKey.id_entry_ne_stage (lead pipeline stage : Value) (h : lead.magnitude?.isSome) :
    (entry lead pipeline).id ≠ (LockKey.stage stage).id := by
  obtain ⟨m, hm⟩ := Option.isSome_iff_exists.mp h
  simp [id, LockPart.of, hm]

namespace LockStep

def isGranted (holds : List Hold) : LockStep → Bool
  | .hold owner key _ wait => key.isUsable && wait.check.isOk && Hold.leave holds owner key
  | .holdMany owner keys wait =>
    match wait.left with
    | .ok left => LockKey.areOrdered keys && (keys.isEmpty || left.check.isOk && keys.all (Hold.leave holds owner))
    | .error _ => false
  | .release owner => holds.any (·.owner = owner)
  | .finish place => place < holds.length

/-- The holds that are not yet released after a step. -/
def settle (holds : List Hold) (step : LockStep) : List Hold :=
  if step.isGranted holds then
    match step with
    | .hold owner key _ _ => ⟨owner, [key]⟩ :: holds
    | .holdMany owner keys _ => ⟨owner, keys⟩ :: holds
    | .release owner => holds.eraseP (·.owner = owner)
    | .finish place => holds.eraseIdx place
  else
    holds

def unreleased (steps : List LockStep) : List Hold :=
  steps.foldl settle []

/-- The keys that a step asks for or gives back. -/
def touched (holds : List Hold) : LockStep → List LockKey
  | .hold _ key _ _ => [key]
  | .holdMany _ keys _ => keys
  | .release owner => ((holds.find? (·.owner = owner)).map (·.keys)).getD []
  | .finish place => (holds[place]?.map (·.keys)).getD []

theorem foldl_release (holds : List Hold) : (holds.map fun h => release h.owner).foldl settle holds = [] := by
  induction holds with
  | nil => rfl
  | cons h holds ih =>
    have hsettle : (release h.owner).settle (h :: holds) = holds := by
      simp [settle, isGranted]
    rw [List.map_cons, List.foldl_cons, hsettle]
    exact ih

end LockStep

/-! ## The registry after steps -/

namespace Registry

/-- Whether a step succeeds, and what is left after it. -/
def perform (r : Registry) : LockStep → Bool × Registry
  | .hold owner key waiter wait => heldOrNot (r.tryHold owner key waiter wait)
  | .holdMany owner keys wait => heldOrNot (r.tryHoldMany owner keys wait)
  | .release owner => releasedOrNot (r.release? owner)
  | .finish place => releasedOrNot (r.finish? place)
where
  heldOrNot : Except Fault Unit × Registry → Bool × Registry
    | (.ok (), r) => (true, r)
    | (.error _, r) => (false, r)
  releasedOrNot : Option Registry → Bool × Registry
    | some r => (true, r)
    | none => (false, r)

def after (r : Registry) (step : LockStep) : Registry :=
  (r.perform step).2

def reached (steps : List LockStep) : Registry :=
  steps.foldl after empty

structure IsTallied (r : Registry) : Prop where
  ids : r.table.ids.Nodup
  settled : r.table.IsSettled
  distinct : ∀ h ∈ r.holds, (h.keys.map (·.id)).Nodup
  owner : ∀ h ∈ r.holds, ∀ key, h.covers key → r.table.owner? key = some h.owner
  count : ∀ key, r.table.count key = r.holds.countP (·.covers key)

section

variable {r r' : Registry} {owner : Owner} {key k : LockKey} {keys : List LockKey} {waiter : Waiter} {wait : Wait}
  {taken : LockTable} {place : Nat} {holds : List Hold}

theorem tryHold_eq :
    r.tryHold owner key waiter wait =
      match r.table.take owner key waiter wait with
      | .ok taken => (.ok (), ⟨taken, ⟨owner, [key]⟩ :: r.holds⟩)
      | .error e => (.error e, r) := by
  unfold tryHold
  rw [LockTable.enter_eq]
  cases r.table.take owner key waiter wait <;> rfl

theorem tryHoldMany_eq :
    r.tryHoldMany owner keys wait =
      match r.table.takeAll owner keys wait with
      | .ok taken => (.ok (), ⟨taken, ⟨owner, LockKey.sorted keys⟩ :: r.holds⟩)
      | .error e => (.error e, r) := by
  unfold tryHoldMany
  rw [LockTable.enterAll_eq]
  cases r.table.takeAll owner keys wait <;> rfl

theorem hold_eq_take :
    r.hold owner key waiter wait =
      (r.table.take owner key waiter wait).map fun taken => ⟨taken, ⟨owner, [key]⟩ :: r.holds⟩ := by
  unfold hold
  rw [tryHold_eq]
  cases r.table.take owner key waiter wait <;> rfl

theorem holdMany_eq_takeAll :
    r.holdMany owner keys wait =
      (r.table.takeAll owner keys wait).map fun taken => ⟨taken, ⟨owner, LockKey.sorted keys⟩ :: r.holds⟩ := by
  unfold holdMany
  rw [tryHoldMany_eq]
  cases r.table.takeAll owner keys wait <;> rfl

theorem isTallied_empty : empty.IsTallied where
  ids := List.nodup_nil
  settled := fun _ h => nomatch h
  distinct := fun _ h => nomatch h
  owner := fun _ h => nomatch h
  count := fun _ => rfl

theorem IsTallied.take (hr : r.IsTallied) (hkeys : (keys.map (·.id)).Nodup)
    (ht : LockTable.acquireAll owner keys r.table = .ok taken) : IsTallied ⟨taken, ⟨owner, keys⟩ :: r.holds⟩ where
  ids := LockTable.nodup_of_acquireAll ht hr.ids
  settled := hr.settled.of_acquireAll ht
  distinct := List.forall_mem_cons.mpr ⟨hkeys, hr.distinct⟩
  owner := by
    intro h hh k hk
    rcases List.mem_cons.mp hh with rfl | hh
    . exact (LockTable.of_acquireAll ht hkeys (by simpa [Hold.covers] using hk)).1
    . have hold := hr.owner h hh k hk
      by_cases hmem : k.id ∈ keys.map (·.id)
      . obtain ⟨hnew, -, hsame⟩ := LockTable.of_acquireAll ht hkeys hmem
        exact hnew.trans (congrArg some (hsame h.owner hold).symm)
      . exact (LockTable.owner?_congr (LockTable.find?_of_acquireAll ht hmem)).trans hold
  count := by
    intro k
    rw [List.countP_cons, ← hr.count]
    by_cases hmem : k.id ∈ keys.map (·.id)
    . simp only [Hold.covers, hmem, decide_true, ↓reduceIte]
      exact (LockTable.of_acquireAll ht hkeys hmem).2.1
    . simp only [Hold.covers, hmem, decide_false, Bool.false_eq_true, ↓reduceIte]
      exact LockTable.count_congr (LockTable.find?_of_acquireAll ht hmem)

theorem IsTallied.finish {hold : Hold} (hr : r.IsTallied) (h : r.holds[place]? = some hold) :
    IsTallied ⟨r.table.releaseAll hold.owner hold.keys, r.holds.eraseIdx place⟩ := by
  obtain ⟨hplace, rfl⟩ := List.getElem?_eq_some_iff.mp h
  have hperm := List.getElem_cons_eraseIdx_perm hplace
  have hin : r.holds[place] ∈ r.holds := List.getElem_mem hplace
  have hin' : ∀ h ∈ r.holds.eraseIdx place, h ∈ r.holds := fun h hh => List.mem_of_mem_eraseIdx hh
  have hkeys := hr.distinct _ hin
  have howner : ∀ key ∈ r.holds[place].keys, r.table.owner? key = some r.holds[place].owner := by
    intro key hkey
    exact hr.owner _ hin key (by simpa [Hold.covers] using ⟨key, hkey, rfl⟩)
  have hsettled := hr.settled.releaseAll hkeys howner
  have hcount : ∀ key, (r.table.releaseAll r.holds[place].owner r.holds[place].keys).count key =
      (r.holds.eraseIdx place).countP (·.covers key) := by
    intro key
    have hbefore := hr.count key
    rw [← hperm.countP_eq, List.countP_cons] at hbefore
    by_cases hmem : key.id ∈ r.holds[place].keys.map (·.id)
    . have hafter := (LockTable.of_releaseAll hr.ids hkeys howner hmem).1
      simp only [Hold.covers, hmem, decide_true, ↓reduceIte] at hbefore ⊢
      omega
    . rw [LockTable.count_congr (LockTable.find?_releaseAll hmem), hbefore]
      simp only [Hold.covers, hmem, decide_false, Bool.false_eq_true, ↓reduceIte, Nat.add_zero]
  refine ⟨hr.ids.sublist (LockTable.sublist_releaseAll _ _ _), hsettled, fun h hh => hr.distinct h (hin' h hh), ?_,
    hcount⟩
  intro h hh key hkey
  have hbefore := hr.owner h (hin' h hh) key hkey
  by_cases hmem : key.id ∈ r.holds[place].keys.map (·.id)
  . -- The hold that is left keeps the lock in the table, and its owner is the one that released.
    have hpos : 0 < (r.table.releaseAll r.holds[place].owner r.holds[place].keys).count key := by
      rw [hcount]
      exact List.countP_pos_iff.mpr ⟨h, hh, hkey⟩
    obtain ⟨o, ho⟩ := hsettled.count_pos_iff.mp hpos
    have hsame := (LockTable.of_releaseAll hr.ids hkeys howner hmem).2 o ho
    have hhold := hr.owner _ hin key (by simpa [Hold.covers] using hmem)
    dsimp only
    rw [ho, hsame, ← hhold, hbefore]
  . dsimp only
    rw [LockTable.owner?_congr (LockTable.find?_releaseAll hmem), hbefore]

theorem release?_of_acquireAll (h : LockTable.acquireAll owner keys r.table = .ok taken) :
    release? ⟨taken, ⟨owner, keys⟩ :: r.holds⟩ owner = some r := by
  simp [release?, finish?, List.findIdx?_cons, LockTable.releaseAll_of_acquireAll h]

theorem perform_hold :
    r.perform (.hold owner key waiter wait) =
      match r.table.take owner key waiter wait with
      | .ok taken => (true, ⟨taken, ⟨owner, [key]⟩ :: r.holds⟩)
      | .error _ => (false, r) := by
  unfold perform perform.heldOrNot
  dsimp only
  rw [tryHold_eq]
  cases r.table.take owner key waiter wait <;> rfl

theorem perform_holdMany :
    r.perform (.holdMany owner keys wait) =
      match r.table.takeAll owner keys wait with
      | .ok taken => (true, ⟨taken, ⟨owner, LockKey.sorted keys⟩ :: r.holds⟩)
      | .error _ => (false, r) := by
  unfold perform perform.heldOrNot
  dsimp only
  rw [tryHoldMany_eq]
  cases r.table.takeAll owner keys wait <;> rfl

theorem perform_finish :
    r.perform (.finish place) =
      match r.holds[place]? with
      | some hold => (true, ⟨r.table.releaseAll hold.owner hold.keys, r.holds.eraseIdx place⟩)
      | none => (false, r) := by
  unfold perform finish?
  cases hplace : r.holds[place]? <;> simp [perform.releasedOrNot, hplace]

/-- The newest hold of an owner has a place, too. -/
theorem perform_release :
    r.perform (.release owner) =
      match r.holds.findIdx? (·.owner = owner) with
      | some place => r.perform (.finish place)
      | none => (false, r) := by
  unfold perform release?
  cases hplace : r.holds.findIdx? (·.owner = owner) <;> simp [perform.releasedOrNot, hplace]

/-- What a step does if it does anything. -/
theorem perform_cases (r : Registry) (step : LockStep) :
    r.perform step = (false, r) ∨
      (∃ owner keys taken, (keys.map (·.id)).Nodup ∧
        (∀ i, i ∈ keys.map (·.id) ↔ i ∈ (step.touched r.holds).map (·.id)) ∧
        LockTable.acquireAll owner keys r.table = .ok taken ∧
        r.perform step = (true, ⟨taken, ⟨owner, keys⟩ :: r.holds⟩)) ∨
      ∃ place hold, r.holds[place]? = some hold ∧ step.touched r.holds = hold.keys ∧
        r.perform step = (true, ⟨r.table.releaseAll hold.owner hold.keys, r.holds.eraseIdx place⟩) := by
  cases step with
  | hold owner key waiter wait =>
    rw [perform_hold]
    cases ht : r.table.take owner key waiter wait with
    | ok taken =>
      exact .inr (.inl ⟨owner, [key], taken, List.nodup_singleton _, fun _ => Iff.rfl, LockTable.acquireAll_of_take ht,
        rfl⟩)
    | error e => exact .inl rfl
  | holdMany owner keys wait =>
    rw [perform_holdMany]
    cases ht : r.table.takeAll owner keys wait with
    | ok taken =>
      exact .inr (.inl ⟨owner, LockKey.sorted keys, taken, (LockKey.areRising_sorted keys).nodup,
        fun _ => LockKey.mem_id_sorted, LockTable.acquireAll_of_takeAll ht, rfl⟩)
    | error e => exact .inl rfl
  | release owner =>
    rw [perform_release]
    cases hplace : r.holds.findIdx? (·.owner = owner) with
    | some place =>
      obtain ⟨hlt, -⟩ := List.findIdx?_eq_some_iff_getElem.mp hplace
      dsimp only
      rw [perform_finish, List.getElem?_eq_getElem hlt]
      refine .inr (.inr ⟨place, r.holds[place], List.getElem?_eq_getElem hlt, ?_, rfl⟩)
      unfold LockStep.touched
      dsimp only
      rw [List.find?_eq_bind_findIdx?_getElem?, hplace]
      simp [hlt]
    | none => exact .inl rfl
  | finish place =>
    rw [perform_finish]
    cases hplace : r.holds[place]? with
    | some hold => exact .inr (.inr ⟨place, hold, hplace, by simp [LockStep.touched, hplace], rfl⟩)
    | none => exact .inl rfl

theorem IsTallied.after (hr : r.IsTallied) (step : LockStep) : (r.after step).IsTallied := by
  unfold Registry.after
  rcases perform_cases r step with hstay | ⟨owner, keys, taken, hkeys, -, ht, hperform⟩ | ⟨place, hold, hplace, -, hperform⟩
  . rw [hstay]
    exact hr
  . rw [hperform]
    exact hr.take hkeys ht
  . rw [hperform]
    exact hr.finish hplace

theorem isTallied_reached (steps : List LockStep) : (reached steps).IsTallied := by
  suffices h : ∀ r : Registry, r.IsTallied → (steps.foldl Registry.after r).IsTallied from h _ isTallied_empty
  induction steps with
  | nil => exact fun _ h => h
  | cons step steps ih => exact fun r h => ih _ (h.after step)

theorem find?_after {step : LockStep} (hk : k.id ∉ (step.touched r.holds).map (·.id)) :
    (r.after step).table.find? k = r.table.find? k := by
  unfold after
  rcases perform_cases r step with hstay | ⟨owner, keys, taken, -, hkeys, ht, hperform⟩ | ⟨place, hold, -, htouched, hperform⟩
  . rw [hstay]
  . rw [hperform]
    apply LockTable.find?_of_acquireAll ht
    rw [hkeys]
    exact hk
  . rw [hperform]
    apply LockTable.find?_releaseAll
    rw [htouched] at hk
    exact hk

theorem IsTallied.owner?_eq_some_iff (hr : r.IsTallied) {o : Owner} :
    r.table.owner? k = some o ↔ ∃ h ∈ r.holds, h.covers k ∧ h.owner = o := by
  constructor
  . intro ho
    have hpos := LockTable.count_pos_of_owner? ho
    rw [hr.count, List.countP_pos_iff] at hpos
    obtain ⟨h, hh, hk⟩ := hpos
    refine ⟨h, hh, hk, ?_⟩
    rw [hr.owner h hh k hk, Option.some.injEq] at ho
    exact ho
  . rintro ⟨h, hh, hk, rfl⟩
    exact hr.owner h hh k hk

theorem IsTallied.mem_activeKeys_iff (hr : r.IsTallied) :
    k.id ∈ r.table.activeKeys.map (·.id) ↔ ∃ h ∈ r.holds, h.covers k := by
  have hids : k.id ∈ r.table.activeKeys.map (·.id) ↔ k.id ∈ r.table.ids := by
    unfold LockTable.activeKeys LockTable.ids
    rw [LockKey.mem_id_sorted, List.map_map]
    rfl
  rw [hids, ← LockTable.count_pos_iff_mem, hr.count, List.countP_pos_iff]

theorem IsTallied.isOk_acquireAll_iff (hr : r.IsTallied) :
    (LockTable.acquireAll owner keys r.table).isOk ↔
      ∀ key ∈ keys, ∀ h ∈ r.holds, h.covers key → h.owner = owner := by
  rw [LockTable.isOk_acquireAll_iff]
  apply forall₂_congr
  intro key hkey
  simp only [hr.owner?_eq_some_iff]
  constructor
  . intro h hold hhold hcovers
    exact h hold.owner ⟨hold, hhold, hcovers, rfl⟩
  . rintro h o ⟨hold, hhold, hcovers, rfl⟩
    exact h hold hhold hcovers

theorem hold_eq (hkey : key.isUsable) (hcheck : wait.check = .ok ()) :
    r.hold owner key waiter wait =
      match LockTable.acquire? owner key r.table with
      | some taken => .ok ⟨taken, ⟨owner, [key]⟩ :: r.holds⟩
      | none => .error (waiter.fault wait) := by
  rw [hold_eq_take, LockTable.take_eq hkey hcheck]
  cases LockTable.acquire? owner key r.table <;> rfl

theorem holdMany_eq {left : Wait} (hkeys : LockKey.areOrdered keys) (hleft : wait.left = .ok left)
    (hcheck : keys ≠ [] → left.check = .ok ()) :
    r.holdMany owner keys wait =
      match LockTable.acquireAll owner (LockKey.sorted keys) r.table with
      | .ok taken => .ok ⟨taken, ⟨owner, LockKey.sorted keys⟩ :: r.holds⟩
      | .error key => .error (key.waiter.fault wait) := by
  rw [holdMany_eq_takeAll, LockTable.takeAll_eq hkeys hleft hcheck]
  cases LockTable.acquireAll owner (LockKey.sorted keys) r.table <;> rfl

/-! ## Steps that succeed -/

theorem leave_map_sorted (holds : List Hold) (owner : Owner) :
    Hold.leave (holds.map Hold.sorted) owner = Hold.leave holds owner := by
  funext key
  unfold Hold.leave
  rw [List.all_map]
  congr 1
  funext h
  simp only [Function.comp_apply, Hold.covers_sorted]
  rfl

theorem isGranted_map_sorted (holds : List Hold) (step : LockStep) :
    step.isGranted (holds.map Hold.sorted) = step.isGranted holds := by
  cases step <;> simp only [LockStep.isGranted, leave_map_sorted, List.any_map, List.length_map]
  rfl

/-- Whether a hold covers a key is a matter of what the key stands for. -/
theorem all_leave_sorted (holds : List Hold) (keys : List LockKey) :
    (LockKey.sorted keys).all (Hold.leave holds owner) = keys.all (Hold.leave holds owner) := by
  rw [Bool.eq_iff_iff, List.all_eq_true, List.all_eq_true]
  simp only [Hold.leave_iff]
  exact LockKey.forall_mem_sorted (P := fun i => ∀ h ∈ holds, decide (i ∈ h.keys.map (·.id)) = true → h.owner = owner)

theorem mem_id_touched_sorted (holds : List Hold) (step : LockStep) :
    ∀ i, i ∈ (step.touched (holds.map Hold.sorted)).map (·.id) ↔ i ∈ (step.touched holds).map (·.id) := by
  have hkeys : ∀ h? : Option Hold, ∀ i, i ∈ (((h?.map Hold.sorted).map (·.keys)).getD []).map (·.id) ↔
      i ∈ ((h?.map (·.keys)).getD []).map (·.id) := by
    intro h? i
    cases h? with
    | none => rfl
    | some h => exact LockKey.mem_id_sorted
  intro i
  cases step with
  | hold => rfl
  | holdMany => rfl
  | release owner =>
    simp only [LockStep.touched, List.find?_map]
    apply hkeys
  | finish place =>
    simp only [LockStep.touched, List.getElem?_map]
    apply hkeys

theorem IsTallied.isOk_acquireAll_eq (hr : r.IsTallied) :
    (LockTable.acquireAll owner keys r.table).isOk = keys.all (Hold.leave r.holds owner) := by
  rw [Bool.eq_iff_iff, hr.isOk_acquireAll_iff, List.all_eq_true]
  simp only [Hold.leave_iff]

theorem IsTallied.isOk_take (hr : r.IsTallied) :
    (r.table.take owner key waiter wait).isOk = (LockStep.hold owner key waiter wait).isGranted r.holds := by
  have hall : (LockTable.acquireAll owner [key] r.table).isOk = _ := hr.isOk_acquireAll_eq
  rw [List.all_cons, List.all_nil, Bool.and_true] at hall
  unfold LockTable.take LockStep.isGranted
  dsimp only
  rw [← hall]
  unfold LockTable.acquireAll
  cases key.isUsable with
  | false => rfl
  | true =>
    cases wait.check with
    | error e => rfl
    | ok _ => cases r.table.acquire? owner key <;> rfl

theorem IsTallied.isOk_takeAll (hr : r.IsTallied) :
    (r.table.takeAll owner keys wait).isOk = (LockStep.holdMany owner keys wait).isGranted r.holds := by
  have hall : (LockTable.acquireAll owner (LockKey.sorted keys) r.table).isOk = _ := hr.isOk_acquireAll_eq
  rw [all_leave_sorted] at hall
  unfold LockTable.takeAll LockStep.isGranted
  dsimp only
  rw [← hall]
  cases wait.left with
  | error e => rfl
  | ok left =>
    cases LockKey.areOrdered keys with
    | false => rfl
    | true =>
      cases keys with
      | nil => rfl
      | cons key keys =>
        cases hcheck : left.check with
        | error e => simp [hcheck, bind, Except.bind, Except.isOk, Except.toBool]
        | ok _ =>
          cases LockTable.acquireAll owner (LockKey.sorted (key :: keys)) r.table <;>
            simp [hcheck, bind, Except.bind, Except.isOk, Except.toBool, pure, Except.pure, throw, throwThe,
              MonadExceptOf.throw]

theorem IsTallied.fst_perform (hr : r.IsTallied) (step : LockStep) : (r.perform step).1 = step.isGranted r.holds := by
  cases step with
  | hold owner key waiter wait =>
    rw [perform_hold, ← hr.isOk_take]
    cases r.table.take owner key waiter wait <;> rfl
  | holdMany owner keys wait =>
    rw [perform_holdMany, ← hr.isOk_takeAll]
    cases r.table.takeAll owner keys wait <;> rfl
  | release owner =>
    rw [perform_release]
    unfold LockStep.isGranted
    dsimp only
    cases hplace : r.holds.findIdx? (·.owner = owner) with
    | none =>
      rw [List.findIdx?_eq_none_iff] at hplace
      simpa using hplace
    | some place =>
      obtain ⟨hlt, howner, -⟩ := List.findIdx?_eq_some_iff_getElem.mp hplace
      dsimp only
      rw [perform_finish, List.getElem?_eq_getElem hlt]
      exact (List.any_eq_true.mpr ⟨_, List.getElem_mem hlt, howner⟩).symm
  | finish place =>
    rw [perform_finish]
    unfold LockStep.isGranted
    dsimp only
    by_cases hlt : place < r.holds.length
    . simp [hlt]
    . simp [hlt]

theorem after_of_not_granted {step : LockStep} (h : (r.perform step).1 = false) : r.after step = r := by
  unfold after
  rcases perform_cases r step with hstay | ⟨owner, keys, taken, -, -, -, hperform⟩ | ⟨place, hold, -, -, hperform⟩
  . rw [hstay]
  . rw [hperform] at h
    cases h
  . rw [hperform] at h
    cases h

theorem holds_after {step : LockStep} (hr : r.IsTallied) (hholds : r.holds = holds.map Hold.sorted) :
    (r.after step).holds = (step.settle holds).map Hold.sorted := by
  have hgranted := hr.fst_perform step
  rw [hholds, isGranted_map_sorted] at hgranted
  unfold LockStep.settle
  rw [← hgranted]
  cases hdone : (r.perform step).1 with
  | false =>
    rw [after_of_not_granted hdone, hholds]
    rfl
  | true =>
    simp only [↓reduceIte]
    unfold after
    cases step with
    | hold owner key waiter wait =>
      rw [perform_hold] at hdone ⊢
      cases ht : r.table.take owner key waiter wait with
      | ok taken => simp [hholds, Hold.sorted, LockKey.sorted, LockKey.insert]
      | error e => simp [ht] at hdone
    | holdMany owner keys wait =>
      rw [perform_holdMany] at hdone ⊢
      cases ht : r.table.takeAll owner keys wait with
      | ok taken => simp [hholds, Hold.sorted]
      | error e => simp [ht] at hdone
    | release owner =>
      rw [perform_release] at hdone ⊢
      cases hplace : r.holds.findIdx? (·.owner = owner) with
      | none => simp [hplace] at hdone
      | some place =>
        obtain ⟨hlt, -⟩ := List.findIdx?_eq_some_iff_getElem.mp hplace
        have hsame : holds.findIdx? (·.owner = owner) = some place := by
          rw [hholds, List.findIdx?_map] at hplace
          exact hplace
        dsimp only
        rw [perform_finish, List.getElem?_eq_getElem hlt, List.eraseP_eq_eraseIdx, hsame]
        dsimp only
        rw [hholds, List.eraseIdx_map]
    | finish place =>
      rw [perform_finish] at hdone ⊢
      cases hplace : r.holds[place]? with
      | none => simp [hplace] at hdone
      | some hold =>
        dsimp only
        rw [hholds]
        exact List.eraseIdx_map _ _ _

theorem holds_reached (steps : List LockStep) : (reached steps).holds = (LockStep.unreleased steps).map Hold.sorted := by
  suffices h : ∀ r : Registry, r.IsTallied → ∀ holds, r.holds = holds.map Hold.sorted →
      (steps.foldl Registry.after r).holds = (steps.foldl LockStep.settle holds).map Hold.sorted from
    h _ isTallied_empty [] rfl
  induction steps with
  | nil => exact fun _ _ _ h => h
  | cons step steps ih => exact fun r hr holds h => ih _ (hr.after step) _ (holds_after hr h)

theorem IsTallied.eq_empty (hr : r.IsTallied) (h : r.holds = []) : r = empty := by
  obtain ⟨table, holds⟩ := r
  cases h
  cases table with
  | nil => rfl
  | cons lock rest =>
    have hcount := hr.count lock.key
    rw [LockTable.count_cons, if_pos rfl] at hcount
    cases hcount

end

/--
After any steps of any owners, and whatever they held or failed to hold, every lock has one owner, is in the table as
often as it is held by what is not yet released, and depends only on the steps that ask for it or give it back. When all
is released nothing is left.
-/
theorem reached_matches_holds (steps : List LockStep) :
    let r := reached steps
    let holds := LockStep.unreleased steps
    (∀ h ∈ holds, ∀ h' ∈ holds, ∀ key, h.covers key → h'.covers key → h.owner = h'.owner) ∧
    (∀ key owner, r.table.owner? key = some owner ↔ ∃ h ∈ holds, h.covers key ∧ h.owner = owner) ∧
    (∀ key, key.id ∈ r.table.activeKeys.map (·.id) ↔ ∃ h ∈ holds, h.covers key) ∧
    (r.table.activeKeys.map (·.id)).Nodup ∧
    (∀ key, r.table.count key = holds.countP (·.covers key) ∧ r.table.depth key = holds.countP (·.covers key)) ∧
    (∀ lead pipeline stage, lead.magnitude?.isSome → (LockKey.entry lead pipeline).id ≠ (LockKey.stage stage).id) ∧
    (∀ step key, key.id ∉ (step.touched holds).map (·.id) → (r.after step).table.find? key = r.table.find? key) ∧
    (∀ step, (r.perform step).1 = step.isGranted holds ∧ (¬step.isGranted holds → r.after step = r)) ∧
    (holds = [] → r = empty) ∧
    reached (steps ++ holds.map fun h => .release h.owner) = empty := by
  intro r holds
  have hr : r.IsTallied := isTallied_reached steps
  have hholds : r.holds = holds.map Hold.sorted := holds_reached steps
  have hsome : ∀ P : Hold → Prop, (∃ h ∈ r.holds, P h) ↔ ∃ h ∈ holds, P h.sorted := by
    intro P
    simp [hholds]
  have hcount : ∀ key, r.table.count key = holds.countP (·.covers key) := by
    intro key
    rw [hr.count, hholds, List.countP_map]
    congr 1
    funext h
    exact Hold.covers_sorted h key
  have hnone : ∀ steps, LockStep.unreleased steps = [] → reached steps = empty := by
    intro steps h
    apply (isTallied_reached steps).eq_empty
    rw [holds_reached, h, List.map_nil]
  have howner : ∀ key owner, r.table.owner? key = some owner ↔ ∃ h ∈ holds, h.covers key ∧ h.owner = owner := by
    intro key owner
    rw [hr.owner?_eq_some_iff, hsome fun h => h.covers key ∧ h.owner = owner]
    simp only [Hold.covers_sorted, Hold.owner_sorted]
  refine ⟨?_, howner, ?_, (LockKey.areRising_sorted _).nodup, fun key => ⟨hcount key, ?_⟩, ?_, ?_, ?_, hnone steps, ?_⟩
  . intro h hh h' hh' key hkey hkey'
    have hsame := (howner key h.owner).mpr ⟨h, hh, hkey, rfl⟩
    rw [(howner key h'.owner).mpr ⟨h', hh', hkey', rfl⟩, Option.some.injEq] at hsame
    exact hsame.symm
  . intro key
    rw [hr.mem_activeKeys_iff, hsome fun h => h.covers key]
    simp only [Hold.covers_sorted]
  . rw [hr.settled.depth_eq_count, hcount]
  . exact LockKey.id_entry_ne_stage
  . intro step key hkey
    apply find?_after
    rw [hholds, mem_id_touched_sorted]
    exact hkey
  . intro step
    have hgranted := hr.fst_perform step
    rw [hholds, isGranted_map_sorted] at hgranted
    refine ⟨hgranted, fun hdenied => after_of_not_granted ?_⟩
    rw [hgranted]
    simpa using hdenied
  . apply hnone
    unfold LockStep.unreleased
    rw [List.foldl_append]
    exact LockStep.foldl_release holds

end Registry

/-! ## Steps of owners in the service -/

def Command.lockStep? : Command → Option LockStep
  | .hold owner key waiter wait => some (.hold owner key waiter wait)
  | .holdMany owner keys wait => some (.holdMany owner keys wait)
  | .release owner => some (.release owner)
  | _ => none

end StageGate
