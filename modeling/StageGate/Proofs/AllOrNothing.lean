import Mathlib.Data.Prod.Lex
import StageGate.Proofs.HeldKeys

/-!
This module contains what an owner gets that asks for several keys of entries at once: all of them, each once more than
before, or none of them, because of the least one that somebody else holds. How the keys are listed does not matter.
-/

namespace StageGate

/-! ## Keys of entries -/

namespace LockKey

variable {ids ids' : List (Int × Int)} {i j : Int × Int}

/-- The key of the entries of a lead in a pipeline. -/
def ofIds (i : Int × Int) : LockKey :=
  .entry (.int i.1) (.int i.2)

theorem lt_id_ofIds : (ofIds i).id.lt (ofIds j).id ↔ toLex i < toLex j := by
  have hnumber : ∀ m n : Int, (LockPart.of (.int m)).lt (.of (.int n)) ↔ m < n := by
    intro m n
    simp [LockPart.of, Value.magnitude?, LockPart.lt, Magnitude.lt_ofInt]
    simp [Magnitude.ofInt]
  have hsame : ∀ m n : Int, LockPart.of (.int m) = .of (.int n) ↔ m = n := by
    intro m n
    simp [LockPart.of, Value.magnitude?, Magnitude.ofInt]
  simp [ofIds, id, LockId.lt, hnumber, hsame, Prod.Lex.toLex_lt_toLex]

theorem id_ofIds_inj : (ofIds i).id = (ofIds j).id ↔ i = j := by
  simp [ofIds, id, LockPart.of, Value.magnitude?, Magnitude.ofInt, Prod.ext_iff]

theorem areOrdered_ofIds (ids : List (Int × Int)) : areOrdered (ids.map ofIds) := by
  apply LockTable.areOrdered_of_int
  intro key hkey
  obtain ⟨i, -, rfl⟩ := List.mem_map.mp hkey
  exact ⟨i.1, i.2, rfl⟩

theorem exists_of_mem_sorted {key : LockKey} (h : key ∈ sorted (ids.map ofIds)) : ∃ i ∈ ids, ofIds i = key :=
  List.mem_map.mp (mem_of_mem_sorted h)

/-- Sorting loses none of the keys, as different ones never stand for the same lock. -/
theorem mem_sorted_ofIds : ofIds i ∈ sorted (ids.map ofIds) ↔ i ∈ ids := by
  constructor
  . intro h
    obtain ⟨j, hj, heq⟩ := exists_of_mem_sorted h
    rw [← id_ofIds_inj.mp (congrArg id heq)]
    exact hj
  . intro h
    have hid : (ofIds i).id ∈ (sorted (ids.map ofIds)).map id :=
      mem_id_sorted.mpr (List.mem_map_of_mem (List.mem_map_of_mem h))
    obtain ⟨k, hk, heq⟩ := List.mem_map.mp hid
    obtain ⟨j, -, rfl⟩ := exists_of_mem_sorted hk
    rw [← id_ofIds_inj.mp heq]
    exact hk

theorem sorted_congr (h : ∀ i, i ∈ ids' ↔ i ∈ ids) : sorted (ids'.map ofIds) = sorted (ids.map ofIds) := by
  have hrising := areRising_sorted (ids.map ofIds)
  have hrising' := areRising_sorted (ids'.map ofIds)
  have hperm : (sorted (ids'.map ofIds)).Perm (sorted (ids.map ofIds)) := by
    rw [List.perm_ext_iff_of_nodup hrising'.nodup.of_map hrising.nodup.of_map]
    intro key
    constructor
    . intro hkey
      obtain ⟨i, hi, rfl⟩ := exists_of_mem_sorted hkey
      exact mem_sorted_ofIds.mpr ((h i).mp hi)
    . intro hkey
      obtain ⟨i, hi, rfl⟩ := exists_of_mem_sorted hkey
      exact mem_sorted_ofIds.mpr ((h i).mpr hi)
  apply hperm.eq_of_pairwise _ hrising' hrising
  intro k l _ _ hkl hlk
  have hloop := LockId.lt_trans hkl hlk
  rw [LockId.lt_irrefl] at hloop
  cases hloop

theorem find?_sorted_eq_none_iff {p : LockKey → Bool} :
    (sorted (ids.map ofIds)).find? p = none ↔ ∀ i ∈ ids, ¬p (ofIds i) := by
  rw [List.find?_eq_none]
  constructor
  . intro h i hi
    exact h (ofIds i) (mem_sorted_ofIds.mpr hi)
  . intro h key hkey
    obtain ⟨i, hi, rfl⟩ := exists_of_mem_sorted hkey
    exact h i hi

theorem exists_of_find?_sorted {p : LockKey → Bool} {key : LockKey}
    (hfind : (sorted (ids.map ofIds)).find? p = some key) :
    ∃ i ∈ ids, ofIds i = key ∧ p (ofIds i) ∧ ∀ j ∈ ids, p (ofIds j) → toLex i ≤ toLex j := by
  obtain ⟨i, hi, rfl⟩ := exists_of_mem_sorted (List.mem_of_find?_eq_some hfind)
  refine ⟨i, hi, rfl, List.find?_some hfind, ?_⟩
  intro j hj hp
  rcases (areRising_sorted _).of_find? hfind (ofIds j) (mem_sorted_ofIds.mpr hj) hp with heq | hlt
  . rw [id_ofIds_inj.mp (congrArg id heq)]
  . exact (lt_id_ofIds.mp hlt).le

end LockKey

/-! ## Holding several keys -/

namespace Registry

/--
Holds keys one after the other. When one of them is refused, those that are held by then are released again, the last
of them first.
-/
def holdEach (owner : Owner) (wait : Wait) : List LockKey → Registry → Except Fault Unit × Registry
  | [], r => (.ok (), r)
  | key :: keys, r =>
    match r.hold owner key key.waiter wait with
    | .error e => (.error e, r)
    | .ok taken =>
      match holdEach owner wait keys taken with
      | (.ok (), all) => (.ok (), all)
      | (.error e, left) => (.error e, left.after (.release owner))

section

variable {r : Registry} {owner : Owner} {keys : List LockKey} {wait : Wait} {ids ids' : List (Int × Int)}
  {e : Fault}

/-- Wherever the first refusal comes, the releases that follow lead back to where the holds began. -/
theorem holdEach_eq (hkeys : ∀ key ∈ keys, key.isUsable) (hcheck : keys ≠ [] → wait.check = .ok ()) :
    r.holdEach owner wait keys =
      match LockTable.acquireAll owner keys r.table with
      | .ok taken => (.ok (), ⟨taken, (keys.map fun key => ⟨owner, [key]⟩).reverse ++ r.holds⟩)
      | .error key => (.error (key.waiter.fault wait), r) := by
  induction keys generalizing r with
  | nil => rfl
  | cons key keys ih =>
    rw [List.forall_mem_cons] at hkeys
    have hcheck := hcheck (List.cons_ne_nil _ _)
    unfold holdEach LockTable.acquireAll
    rw [hold_eq hkeys.1 hcheck]
    cases ht : LockTable.acquire? owner key r.table with
    | none => rfl
    | some taken =>
      dsimp only
      rw [ih hkeys.2 fun _ => hcheck]
      dsimp only
      cases LockTable.acquireAll owner keys taken with
      | ok all => simp
      | error k =>
        have hone : LockTable.acquireAll owner [key] r.table = .ok taken := by
          unfold LockTable.acquireAll
          rw [ht]
          rfl
        dsimp only
        unfold after perform
        dsimp only
        rw [release?_of_acquireAll hone]
        rfl

theorem holdMany_congr (h : ∀ i, i ∈ ids' ↔ i ∈ ids) :
    r.holdMany owner (ids'.map .ofIds) wait = r.holdMany owner (ids.map .ofIds) wait := by
  have hempty : ids'.isEmpty = ids.isEmpty := by
    rw [Bool.eq_iff_iff, List.isEmpty_iff, List.isEmpty_iff, List.eq_nil_iff_forall_not_mem,
      List.eq_nil_iff_forall_not_mem]
    exact forall_congr' fun i => not_congr (h i)
  rw [holdMany_eq_takeAll, holdMany_eq_takeAll]
  unfold LockTable.takeAll
  rw [LockKey.areOrdered_ofIds, LockKey.areOrdered_ofIds, LockKey.sorted_congr h, List.isEmpty_map, List.isEmpty_map,
    hempty]

theorem holdMany_ofIds_eq (hwait : wait.IsFinite) (hlength : ids ≠ [] → wait.IsBounded) :
    r.holdMany owner (ids.map .ofIds) wait =
      match LockTable.acquireAll owner (LockKey.sorted (ids.map .ofIds)) r.table with
      | .ok taken => .ok ⟨taken, ⟨owner, LockKey.sorted (ids.map .ofIds)⟩ :: r.holds⟩
      | .error key => .error (key.waiter.fault wait) := by
  obtain ⟨left, hleft, hcheck⟩ := hwait.exists_left
  apply holdMany_eq (LockKey.areOrdered_ofIds ids) hleft
  intro hkeys
  rw [hcheck]
  exact (hlength fun hnil => hkeys (by rw [hnil]; rfl)).check

theorem holdEach_ofIds_eq (hlength : ids ≠ [] → wait.IsBounded) :
    r.holdEach owner wait (LockKey.sorted (ids.map .ofIds)) =
      match LockTable.acquireAll owner (LockKey.sorted (ids.map .ofIds)) r.table with
      | .ok taken =>
        (.ok (), ⟨taken, ((LockKey.sorted (ids.map .ofIds)).map fun key => ⟨owner, [key]⟩).reverse ++ r.holds⟩)
      | .error key => (.error (key.waiter.fault wait), r) := by
  apply holdEach_eq
  . intro key hkey
    obtain ⟨i, -, rfl⟩ := LockKey.exists_of_mem_sorted hkey
    rfl
  . intro hkeys
    exact (hlength fun hnil => hkeys (by rw [hnil]; rfl)).check

/-- However often a key is listed, it is taken once. -/
theorem of_acquireAll_sorted {table taken : LockTable}
    (h : LockTable.acquireAll owner (LockKey.sorted (ids.map .ofIds)) table = .ok taken) :
    (∀ i ∈ ids, taken.owner? (.ofIds i) = some owner ∧ taken.count (.ofIds i) = table.count (.ofIds i) + 1) ∧
      ∀ key : LockKey, key.id ∉ (ids.map LockKey.ofIds).map (·.id) → taken.find? key = table.find? key := by
  constructor
  . intro i hi
    have hmem := List.mem_map_of_mem (f := LockKey.id) (LockKey.mem_sorted_ofIds.mpr hi)
    obtain ⟨howner, hcount, -⟩ := LockTable.of_acquireAll h (LockKey.areRising_sorted _).nodup hmem
    exact ⟨howner, hcount⟩
  . intro key hkey
    apply LockTable.find?_of_acquireAll h
    rw [LockKey.mem_id_sorted]
    exact hkey

/-- A wait that breaks does so before the first key is taken. -/
theorem holdMany_of_broken (hwait : wait.IsFinite) (hids : ids ≠ []) (hcheck : wait.check = .error e) :
    r.holdMany owner (ids.map .ofIds) wait = .error e := by
  obtain ⟨left, hleft, hsame⟩ := hwait.exists_left
  have hnonempty : ids.isEmpty = false := List.isEmpty_eq_false_iff.mpr hids
  have htake : r.table.takeAll owner (ids.map .ofIds) wait = .error e := by
    unfold LockTable.takeAll
    rw [hleft, LockKey.areOrdered_ofIds, List.isEmpty_map, hnonempty]
    dsimp only
    rw [ok_bind, hsame, hcheck]
    rfl
  rw [holdMany_eq_takeAll, htake]
  rfl

theorem holdEach_of_broken (hids : ids ≠ []) (hcheck : wait.check = .error e) :
    r.holdEach owner wait (LockKey.sorted (ids.map .ofIds)) = (.error e, r) := by
  cases hkeys : LockKey.sorted (ids.map .ofIds) with
  | nil =>
    obtain ⟨i, hi⟩ := List.exists_mem_of_ne_nil ids hids
    have hmem := LockKey.mem_sorted_ofIds.mpr hi
    rw [hkeys] at hmem
    cases hmem
  | cons key keys =>
    obtain ⟨i, -, rfl⟩ := LockKey.exists_of_mem_sorted (hkeys ▸ List.mem_cons_self)
    have hhold : r.hold owner (.ofIds i) (LockKey.ofIds i).waiter wait = .error e := by
      rw [hold_eq_take]
      unfold LockTable.take
      rw [hcheck]
      rfl
    unfold holdEach
    rw [hhold]

theorem after_of_error (h : r.holdMany owner keys wait = .error e) : r.after (.holdMany owner keys wait) = r := by
  apply after_of_not_granted
  rw [holdMany_eq_takeAll] at h
  rw [perform_holdMany]
  cases ht : r.table.takeAll owner keys wait with
  | ok taken => simp [ht, Except.map] at h
  | error e => rfl

end

/--
An owner that asks for several keys gets them if and only if nobody else holds one of them. It then holds each of them
once more, and a release leads back to what was there before. Otherwise it is told the least one that somebody else
holds, and what it got before that one is released. How often and in what order the keys are listed does not matter.
A wait that is too long for a lock breaks as soon as there is a key to wait for, whoever holds it.
-/
theorem holdMany_all_or_nothing (r : Registry) (owner : Owner) (ids : List (Int × Int)) {wait : Wait}
    (hwait : wait.IsFinite) :
    let keys := ids.map LockKey.ofIds
    ((r.holdMany owner keys wait).isOk ↔
        (ids ≠ [] → wait.IsBounded) ∧ ∀ i ∈ ids, ¬r.table.denies owner (.ofIds i)) ∧
      (∀ r', r.holdMany owner keys wait = .ok r' →
        (∀ i ∈ ids, r'.table.owner? (.ofIds i) = some owner ∧
          r'.table.count (.ofIds i) = r.table.count (.ofIds i) + 1) ∧
        (∀ key, key.id ∉ keys.map (·.id) → r'.table.find? key = r.table.find? key) ∧
        ((r.holdEach owner wait (LockKey.sorted keys)).1 = .ok () ∧
          (r.holdEach owner wait (LockKey.sorted keys)).2.table = r'.table) ∧
        r'.release? owner = some r) ∧
      (∀ e, r.holdMany owner keys wait = .error e →
        (wait.IsBounded → ∃ i ∈ ids, r.table.denies owner (.ofIds i) ∧
          (∀ j ∈ ids, r.table.denies owner (.ofIds j) → toLex i ≤ toLex j) ∧
          e = .refused (.timedOut (.int i.1) (.int i.2) wait .null)) ∧
        (¬wait.IsBounded → e = .broken .tooLarge) ∧
        r.holdEach owner wait (LockKey.sorted keys) = (.error e, r) ∧ r.after (.holdMany owner keys wait) = r) ∧
      ∀ ids' : List (Int × Int), (∀ i, i ∈ ids' ↔ i ∈ ids) →
        r.holdMany owner (ids'.map .ofIds) wait = r.holdMany owner keys wait := by
  intro keys
  by_cases hlength : ids ≠ [] → wait.IsBounded
  . have hmany : r.holdMany owner keys wait = _ := holdMany_ofIds_eq hwait hlength
    have heach : r.holdEach owner wait (LockKey.sorted keys) = _ := holdEach_ofIds_eq hlength
    cases hfind : (LockKey.sorted keys).find? (r.table.denies owner) with
    | some key =>
      obtain ⟨i, hi, rfl, hdenied, hleast⟩ := LockKey.exists_of_find?_sorted hfind
      rw [LockTable.acquireAll_of_find? hfind] at hmany heach
      dsimp only at hmany heach
      rw [Waiter.fault_eq hwait.ne_null] at hmany heach
      refine ⟨?_, ?_, ?_, fun _ h => holdMany_congr h⟩
      . rw [hmany]
        exact iff_of_false Bool.false_ne_true fun h => h.2 i hi hdenied
      . intro r' hr'
        rw [hmany] at hr'
        cases hr'
      . intro e he
        have hafter := after_of_error he
        rw [hmany] at he
        cases he
        refine ⟨fun _ => ⟨i, hi, hdenied, hleast, rfl⟩, fun hlong => ?_, heach, hafter⟩
        exact absurd (hlength (List.ne_nil_of_mem hi)) hlong
    | none =>
      obtain ⟨taken, ht⟩ := LockTable.exists_acquireAll_of_find? hfind
      rw [ht] at hmany heach
      refine ⟨?_, ?_, ?_, fun _ h => holdMany_congr h⟩
      . rw [hmany]
        exact iff_of_true rfl ⟨hlength, LockKey.find?_sorted_eq_none_iff.mp hfind⟩
      . intro r' hr'
        rw [hmany] at hr'
        cases hr'
        obtain ⟨hlisted, hothers⟩ := of_acquireAll_sorted ht
        exact ⟨hlisted, hothers, ⟨by rw [heach], by rw [heach]⟩, release?_of_acquireAll ht⟩
      . intro e he
        rw [hmany] at he
        cases he
  . obtain ⟨hids, hlong⟩ := Classical.not_imp.mp hlength
    have hcheck := hwait.check_of_long hlong
    have hmany : r.holdMany owner keys wait = _ := holdMany_of_broken hwait hids hcheck
    refine ⟨?_, ?_, ?_, fun _ h => holdMany_congr h⟩
    . rw [hmany]
      exact iff_of_false Bool.false_ne_true fun h => hlength h.1
    . intro r' hr'
      rw [hmany] at hr'
      cases hr'
    . intro e he
      have hafter := after_of_error he
      rw [hmany] at he
      cases he
      exact ⟨fun hbounded => absurd hbounded hlong, fun _ => rfl, holdEach_of_broken hids hcheck, hafter⟩

/-- What two shifts hold: the first holds one of its keys twice, and the other one holds keys before and after it. -/
def crowded : Registry :=
  reached
    [.holdMany (.other "day shift") [.ofIds (2, 1), .ofIds (1, 1)] (.int 0),
      .hold (.other "day shift") (.ofIds (2, 1)) ⟨.int 2, .int 1, .null⟩ (.int 0),
      .holdMany (.other "night shift") [.ofIds (3, 1), .ofIds (2, 5)] (.int 0)]

/-- What is listed first among the keys that others hold is not what is named. -/
theorem crowded_refuses_some :
    let owner : Owner := .other "day shift"
    let listed : List (Int × Int) := [(3, 1), (1, 2), (2, 1), (2, 5), (1, 2)]
    let free : List (Int × Int) := [(2, 1), (1, 2), (2, 1)]
    crowded.holdEach owner (.int 5) (LockKey.sorted (listed.map .ofIds)) =
        (.error (.refused (.timedOut (.int 2) (.int 5) (.int 5) .null)), crowded) ∧
      ∃ r', crowded.holdMany owner (free.map .ofIds) (.int 5) = .ok r' ∧ r'.table.count (.ofIds (2, 1)) = 3 ∧
        r'.release? owner = some crowded := by
  intro owner listed free
  have hwait : Wait.IsBounded (.int 5) :=
    ⟨nofun, Binary64.ofInt 5, by decide +kernel, by decide +kernel, by decide +kernel⟩
  constructor
  . obtain ⟨hok, -, hfail, -⟩ := holdMany_all_or_nothing crowded owner listed hwait.isFinite
    cases hr : crowded.holdMany owner (listed.map .ofIds) (.int 5) with
    | ok r' =>
      rw [hr] at hok
      exact absurd (by decide +kernel) ((hok.mp rfl).2 (2, 5) (by decide))
    | error e =>
      obtain ⟨hnamed, -, heach, -⟩ := hfail e hr
      obtain ⟨i, hi, hdenied, hleast, rfl⟩ := hnamed hwait
      have hfirst : ∀ i ∈ listed, crowded.table.denies owner (.ofIds i) →
          (∀ j ∈ listed, crowded.table.denies owner (.ofIds j) → toLex i ≤ toLex j) → i = (2, 5) := by
        decide +kernel
      obtain rfl := hfirst i hi hdenied hleast
      exact heach
  . obtain ⟨hok, hdone, -⟩ := holdMany_all_or_nothing crowded owner free hwait.isFinite
    cases hr : crowded.holdMany owner (free.map .ofIds) (.int 5) with
    | ok r' =>
      obtain ⟨hlisted, -, -, hrelease⟩ := hdone r' hr
      refine ⟨r', rfl, ?_, hrelease⟩
      rw [(hlisted (2, 1) (by decide)).2]
      decide +kernel
    | error e =>
      rw [hr] at hok
      exact absurd (hok.mpr ⟨fun _ => hwait, by decide +kernel⟩) Bool.false_ne_true

/-- A wait that is finite and still too long for a lock breaks, even where nobody holds the key. -/
theorem empty_breaks_long_wait :
    let ids : List (Int × Int) := [(1, 1)]
    let wait : Wait := .int 10000000000
    wait.IsFinite ∧ empty.holdMany .service (ids.map .ofIds) wait = .error (.broken .tooLarge) ∧
      ¬((empty.holdMany .service (ids.map .ofIds) wait).isOk ↔ ∀ i ∈ ids, ¬empty.table.denies .service (.ofIds i)) := by
  intro ids wait
  have hbroken : empty.holdMany .service (ids.map .ofIds) wait = .error (.broken .tooLarge) := by
    decide +kernel
  refine ⟨⟨nofun, Binary64.ofInt 10000000000, ?_, ?_⟩, hbroken, ?_⟩
  . decide +kernel
  . decide +kernel
  . rw [hbroken]
    intro h
    exact Bool.false_ne_true (h.mpr (by decide +kernel))

end Registry

end StageGate
