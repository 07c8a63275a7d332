import Mathlib.Data.List.Nodup
import Mathlib.Data.Rat.Init
import StageGate.Lock

/-!
This module contains the order of locks, and what taking and releasing does to a table of them. The order is
total and strict, all locks of entries come before those of stages, and keys are sorted by it, each one once.
-/

namespace StageGate

/-! ## The order of locks -/

namespace Magnitude

variable {x y z : Magnitude}

theorem lt_irrefl (x : Magnitude) : x.lt x = false := by
  cases x <;> grind [lt]

theorem lt_trans (hxy : x.lt y) (hyz : y.lt z) : x.lt z := by
  cases x <;> cases y <;> cases z <;> grind [lt]

theorem lt_or_eq_or_gt (hx : x ≠ .nothing) (hy : y ≠ .nothing) : x.lt y ∨ x = y ∨ y.lt x := by
  cases x <;> cases y <;> grind [lt]

theorem ne_nothing_of_lt (h : x.lt y) : x ≠ .nothing ∧ y ≠ .nothing := by
  cases x <;> cases y <;> grind [lt]

end Magnitude

namespace LockPart

variable {p q r : LockPart}

theorem rank_number (m : Magnitude) : (number m).rank = if m = .nothing then 1 else 0 := by
  cases m <;> simp [rank]

theorem lt_irrefl (p : LockPart) : p.lt p = false := by
  cases p <;> grind [lt, Magnitude.lt_irrefl]

theorem lt_trans (hpq : p.lt q) (hqr : q.lt r) : p.lt r := by
  cases p <;> cases q <;> cases r <;>
    grind [lt, rank, rank_number, Magnitude.lt_trans, Magnitude.ne_nothing_of_lt]

theorem lt_or_eq_or_gt (p q : LockPart) : p.lt q ∨ p = q ∨ q.lt p := by
  cases p <;> cases q <;> grind [lt, rank, rank_number, Magnitude.lt_or_eq_or_gt]

end LockPart

namespace LockId

variable {i j k : LockId}

theorem lt_irrefl (i : LockId) : i.lt i = false := by
  simp [lt, LockPart.lt_irrefl]

theorem lt_trans (hij : i.lt j) (hjk : j.lt k) : i.lt k := by
  unfold lt at *
  grind [LockPart.lt_trans]

theorem lt_or_eq_or_gt (i j : LockId) : i.lt j ∨ i = j ∨ j.lt i := by
  obtain ⟨first, second⟩ := i
  obtain ⟨first', second'⟩ := j
  simp only [lt, Bool.or_eq_true, Bool.and_eq_true, decide_eq_true_eq, mk.injEq]
  rcases LockPart.lt_or_eq_or_gt first first' with h | rfl | h
  . exact .inl (.inl h)
  . rcases LockPart.lt_or_eq_or_gt second second' with h | rfl | h
    . exact .inl (.inr ⟨rfl, h⟩)
    . exact .inr (.inl ⟨rfl, rfl⟩)
    . exact .inr (.inr (.inr ⟨rfl, h⟩))
  . exact .inr (.inr (.inl h))

/-- An id of an entry whose lead has a number. -/
def IsNumbered (i : LockId) : Prop :=
  ∃ m, i.first = .number m

theorem IsNumbered.lt_stage {stage : Value} (h : i.IsNumbered) : i.lt (LockKey.stage stage).id := by
  obtain ⟨m, hm⟩ := h
  unfold lt
  rw [hm]
  cases m <;> rfl

end LockId

namespace LockKey

def AreRising (keys : List LockKey) : Prop :=
  keys.Pairwise (·.id.lt ·.id)

theorem AreRising.insert {key : LockKey} {keys : List LockKey} (h : AreRising keys) :
    AreRising (insert key keys) := by
  induction keys with
  | nil => exact List.pairwise_singleton _ _
  | cons k ks ih =>
    obtain ⟨hk, hks⟩ := List.pairwise_cons.mp h
    unfold LockKey.insert
    split
    . next heq =>
      apply List.Pairwise.cons _ hks
      intro l hl
      rw [heq]
      exact hk l hl
    . next hne =>
      split
      . next hlt =>
        apply List.Pairwise.cons _ h
        intro l hl
        rcases List.mem_cons.mp hl with rfl | hl
        . exact hlt
        . exact LockId.lt_trans hlt (hk l hl)
      . next hnot =>
        have hgt : k.id.lt key.id := by grind [LockId.lt_or_eq_or_gt]
        apply List.Pairwise.cons _ (ih hks)
        intro l hl
        rcases mem_id_insert.mp (List.mem_map_of_mem hl) with heq | hl
        . rw [heq]
          exact hgt
        . obtain ⟨l', hl', heq⟩ := List.mem_map.mp hl
          rw [← heq]
          exact hk l' hl'

theorem areRising_sorted (keys : List LockKey) : AreRising (sorted keys) := by
  induction keys with
  | nil => exact List.Pairwise.nil
  | cons key keys ih => exact ih.insert

theorem forall_mem_sorted {P : LockId → Prop} {keys : List LockKey} :
    (∀ key ∈ sorted keys, P key.id) ↔ ∀ key ∈ keys, P key.id := by
  have h : (∀ i ∈ (sorted keys).map id, P i) ↔ ∀ i ∈ keys.map id, P i := by
    simp only [mem_id_sorted]
  rwa [List.forall_mem_map, List.forall_mem_map] at h

theorem AreRising.nodup {keys : List LockKey} (h : AreRising keys) : (keys.map id).Nodup := by
  rw [List.Nodup, List.pairwise_map]
  apply h.imp
  intro k l hlt heq
  rw [heq, LockId.lt_irrefl] at hlt
  cases hlt

theorem mem_of_mem_insert {key k : LockKey} {keys : List LockKey} (h : k ∈ insert key keys) : k = key ∨ k ∈ keys := by
  induction keys with
  | nil => exact .inl (List.mem_singleton.mp h)
  | cons l keys ih =>
    unfold insert at h
    grind

theorem mem_of_mem_sorted {k : LockKey} {keys : List LockKey} (h : k ∈ sorted keys) : k ∈ keys := by
  induction keys with
  | nil => cases h
  | cons key keys ih =>
    rcases mem_of_mem_insert h with rfl | h
    . exact List.mem_cons_self
    . exact List.mem_cons_of_mem _ (ih h)

/-- The first of some keys in their order that has a property is the least one that has it. -/
theorem AreRising.of_find? {keys : List LockKey} {p : LockKey → Bool} {key : LockKey} (h : AreRising keys)
    (hfind : keys.find? p = some key) :
    ∀ k ∈ keys, p k → k = key ∨ key.id.lt k.id := by
  obtain ⟨-, before, rest, rfl, hbefore⟩ := List.find?_eq_some_iff_append.mp hfind
  intro k hk hp
  rcases List.mem_append.mp hk with hk | hk
  . have hnot := hbefore k hk
    simp [hp] at hnot
  . obtain rfl | hk := List.mem_cons.mp hk
    . exact .inl rfl
    . exact .inr ((List.pairwise_cons.mp (List.pairwise_append.mp h).2.1).1 k hk)

end LockKey

/-! ## What is taken and given back -/

namespace Latch

variable {latch taken : Latch} {owner o : Owner}

theorem of_acquire? (h : latch.acquire? owner = some taken) :
    taken.owner? = some owner ∧ taken.depth = latch.depth + 1 ∧ ∀ o, latch.owner? = some o → o = owner := by
  cases latch with
  | free =>
    cases h
    simp [owner?, depth]
  | held o n =>
    by_cases ho : o = owner
    . simp only [acquire?, ho, ↓reduceIte, Option.some.injEq] at h
      simp [← h, owner?, depth, ho]
    . simp [acquire?, ho] at h

theorem acquire?_eq_none_iff : latch.acquire? owner = none ↔ ∃ o, latch.owner? = some o ∧ o ≠ owner := by
  cases latch <;> simp [acquire?, owner?]

theorem owner?_of_release (h : (latch.release owner).owner? = some o) : latch.owner? = some o := by
  cases latch with
  | free => cases h
  | held o' n => cases n <;> grind [release, owner?]

theorem depth_release (h : latch.owner? = some owner) : (latch.release owner).depth + 1 = latch.depth := by
  cases latch with
  | free => cases h
  | held o n =>
    cases h
    cases n <;> simp [release, depth]

theorem exists_owner?_of_depth_pos (h : 0 < latch.depth) : ∃ o, latch.owner? = some o := by
  cases latch with
  | free => cases h
  | held o n => exact ⟨o, rfl⟩

end Latch

/-! ## The table of locks -/

namespace LockTable

def ids (table : LockTable) : List LockId :=
  table.map (·.key.id)

/-- Whether somebody else than an owner holds a key. -/
def denies (table : LockTable) (owner : Owner) (key : LockKey) : Bool :=
  (table.owner? key).any (· ≠ owner)

/-- Nobody waits, so a lock is used as often as it is held. -/
def IsSettled (table : LockTable) : Prop :=
  ∀ lock ∈ table, lock.latch.depth = lock.others + 1

@[simp]
theorem ids_cons (lock : Lock) (rest : LockTable) : ids (lock :: rest) = lock.key.id :: rest.ids :=
  rfl

@[simp]
theorem owner?_nil (k : LockKey) : owner? [] k = none :=
  rfl

@[simp]
theorem count_nil (k : LockKey) : count [] k = 0 :=
  rfl

section

variable {table taken : LockTable} {owner o : Owner} {key k : LockKey} {keys : List LockKey}

theorem find?_cons (lock : Lock) (rest : LockTable) (k : LockKey) :
    find? (lock :: rest) k = if lock.key.id = k.id then some lock else rest.find? k := by
  unfold find?
  rw [List.find?_cons]
  split <;> simp_all

theorem owner?_cons (lock : Lock) (rest : LockTable) (k : LockKey) :
    owner? (lock :: rest) k = if lock.key.id = k.id then lock.latch.owner? else rest.owner? k := by
  unfold owner?
  rw [find?_cons]
  split <;> rfl

theorem count_cons (lock : Lock) (rest : LockTable) (k : LockKey) :
    count (lock :: rest) k = if lock.key.id = k.id then lock.others + 1 else rest.count k := by
  unfold count
  rw [find?_cons]
  by_cases h : lock.key.id = k.id <;> simp [h]

theorem nodup_ids_cons {lock : Lock} {rest : LockTable} :
    (ids (lock :: rest)).Nodup ↔ lock.key.id ∉ rest.ids ∧ rest.ids.Nodup :=
  List.nodup_cons

theorem isSettled_cons {lock : Lock} {rest : LockTable} :
    IsSettled (lock :: rest) ↔ lock.latch.depth = lock.others + 1 ∧ rest.IsSettled :=
  List.forall_mem_cons

theorem acquire?_nil (owner : Owner) (key : LockKey) : acquire? owner key [] = some [⟨key, .held owner 0, 0⟩] := by
  simp [acquire?, checkout, lock?, Latch.acquire?]

theorem acquire?_cons (owner : Owner) (key : LockKey) (lock : Lock) (rest : LockTable) :
    acquire? owner key (lock :: rest) =
      if lock.key.id = key.id then
        (lock.latch.acquire? owner).map fun latch => ⟨lock.key, latch, lock.others + 1⟩ :: rest
      else
        (acquire? owner key rest).map (lock :: ·) := by
  by_cases heq : lock.key.id = key.id <;> simp [acquire?, checkout, lock?, heq]

theorem release_cons (owner : Owner) (key : LockKey) (lock : Lock) (rest : LockTable) :
    release owner key (lock :: rest) =
      if lock.key.id = key.id then
        match lock.others with
        | 0 => rest
        | n + 1 => ⟨lock.key, lock.latch.release owner, n⟩ :: rest
      else
        lock :: release owner key rest := by
  by_cases heq : lock.key.id = key.id
  . cases hothers : lock.others with
    | zero => simp [release, unlock, checkin, heq, hothers]
    | succ n => simp [release, unlock, checkin, heq, hothers]
  . simp [release, unlock, checkin, heq]

/-- Whoever has waited in vain leaves nothing behind. -/
theorem checkin_checkout (key : LockKey) (table : LockTable) : (table.checkout key).checkin key = table := by
  induction table with
  | nil => simp [checkout, checkin]
  | cons lock rest ih =>
    unfold checkout
    split
    . next heq => simp [checkin, heq]
    . next hne => simp [checkin, hne, ih]

theorem release_of_acquire? (h : acquire? owner key table = some taken) : taken.release owner key = table := by
  induction table generalizing taken with
  | nil =>
    rw [acquire?_nil] at h
    cases h
    simp [release_cons]
  | cons lock rest ih =>
    rw [acquire?_cons] at h
    split at h
    . next heq =>
      obtain ⟨latch, hlatch, rfl⟩ := Option.map_eq_some_iff.mp h
      simp [release_cons, heq, Latch.release_of_acquire? hlatch]
    . next hne =>
      obtain ⟨t, ht, rfl⟩ := Option.map_eq_some_iff.mp h
      simp [release_cons, hne, ih ht]

theorem count_pos_iff_mem : 0 < table.count k ↔ k.id ∈ table.ids := by
  induction table with
  | nil => simp [ids]
  | cons lock rest ih =>
    rw [count_cons, ids_cons, List.mem_cons]
    split
    . next heq => simp [heq]
    . next hne => simpa [Ne.symm hne] using ih

theorem count_pos_of_owner? (h : table.owner? k = some o) : 0 < table.count k := by
  unfold owner? at h
  unfold count
  obtain ⟨lock, hlock, -⟩ := Option.bind_eq_some_iff.mp h
  simp [hlock]

theorem count_congr {rest : LockTable} (h : table.find? k = rest.find? k) : table.count k = rest.count k := by
  unfold count
  rw [h]

theorem owner?_congr {rest : LockTable} (h : table.find? k = rest.find? k) : table.owner? k = rest.owner? k := by
  unfold owner?
  rw [h]

theorem IsSettled.depth_eq_count (h : table.IsSettled) (k : LockKey) : table.depth k = table.count k := by
  unfold depth count
  cases hfind : table.find? k with
  | none => rfl
  | some lock => exact h lock (List.mem_of_find?_eq_some hfind)

theorem IsSettled.count_pos_iff (h : table.IsSettled) : 0 < table.count k ↔ ∃ o, table.owner? k = some o := by
  constructor
  . intro hcount
    rw [← h.depth_eq_count] at hcount
    unfold depth at hcount
    unfold owner?
    cases hfind : table.find? k with
    | none => simp [hfind] at hcount
    | some lock => exact Latch.exists_owner?_of_depth_pos (by simpa [hfind] using hcount)
  . rintro ⟨o, ho⟩
    exact count_pos_of_owner? ho

theorem IsSettled.count_eq_zero_iff (h : table.IsSettled) : table.count k = 0 ↔ table.owner? k = none := by
  have hpos := h.count_pos_iff (k := k)
  rw [← Option.isSome_iff_exists] at hpos
  cases howner : table.owner? k with
  | none => simpa [howner] using hpos
  | some o => simpa [howner, Nat.pos_iff_ne_zero] using hpos

/-! ## One lock -/

theorem find?_of_acquire? (h : acquire? owner key table = some taken) (hne : key.id ≠ k.id) :
    taken.find? k = table.find? k := by
  induction table generalizing taken with
  | nil =>
    rw [acquire?_nil] at h
    cases h
    simp [find?_cons, hne]
  | cons lock rest ih =>
    rw [acquire?_cons] at h
    split at h
    . next heq =>
      obtain ⟨latch, -, rfl⟩ := Option.map_eq_some_iff.mp h
      simp [find?_cons, heq, hne]
    . obtain ⟨t, ht, rfl⟩ := Option.map_eq_some_iff.mp h
      rw [find?_cons, find?_cons, ih ht]

theorem of_acquire? (h : acquire? owner key table = some taken) (heq : key.id = k.id) :
    taken.owner? k = some owner ∧ taken.count k = table.count k + 1 ∧
      ∀ o, table.owner? k = some o → o = owner := by
  induction table generalizing taken with
  | nil =>
    rw [acquire?_nil] at h
    cases h
    simp [owner?_cons, count_cons, heq, Latch.owner?]
  | cons lock rest ih =>
    rw [acquire?_cons] at h
    split at h
    . next hsame =>
      obtain ⟨latch, hlatch, rfl⟩ := Option.map_eq_some_iff.mp h
      obtain ⟨howner, -, hbefore⟩ := Latch.of_acquire? hlatch
      rw [heq] at hsame
      simpa [owner?_cons, count_cons, hsame, howner] using hbefore
    . next hne =>
      obtain ⟨t, ht, rfl⟩ := Option.map_eq_some_iff.mp h
      rw [heq] at hne
      simpa [owner?_cons, count_cons, hne] using ih ht

theorem acquire?_eq_none_iff : acquire? owner key table = none ↔ ∃ o, table.owner? key = some o ∧ o ≠ owner := by
  induction table with
  | nil => simp [acquire?_nil]
  | cons lock rest ih =>
    rw [acquire?_cons, owner?_cons]
    split
    . rw [Option.map_eq_none_iff]
      exact Latch.acquire?_eq_none_iff
    . rw [Option.map_eq_none_iff]
      exact ih

theorem denies_iff : table.denies owner key ↔ ∃ o, table.owner? key = some o ∧ o ≠ owner := by
  simp [denies, Option.any_eq_true]

theorem acquire?_eq_none_iff_denies : acquire? owner key table = none ↔ table.denies owner key := by
  rw [acquire?_eq_none_iff, denies_iff]

theorem denies_of_acquire? (h : acquire? owner key table = some taken) : table.denies owner key = false := by
  rw [← Bool.not_eq_true, ← acquire?_eq_none_iff_denies, h]
  simp

/-- Nothing is denied to an owner for what it has taken itself. -/
theorem denies_after_acquire? (h : acquire? owner key table = some taken) :
    taken.denies owner = table.denies owner := by
  funext k
  unfold denies
  by_cases heq : key.id = k.id
  . obtain ⟨howner, -, hbefore⟩ := of_acquire? h heq
    rw [howner]
    cases hold : table.owner? k with
    | none => simp
    | some o => simp [hbefore o hold]
  . rw [owner?_congr (find?_of_acquire? h heq)]

theorem nodup_of_acquire? (h : acquire? owner key table = some taken) (hids : table.ids.Nodup) :
    taken.ids.Nodup := by
  induction table generalizing taken with
  | nil =>
    rw [acquire?_nil] at h
    cases h
    exact List.nodup_singleton _
  | cons lock rest ih =>
    obtain ⟨hlock, hrest⟩ := nodup_ids_cons.mp hids
    rw [acquire?_cons] at h
    split at h
    . obtain ⟨latch, -, rfl⟩ := Option.map_eq_some_iff.mp h
      exact hids
    . next hne =>
      obtain ⟨t, ht, rfl⟩ := Option.map_eq_some_iff.mp h
      apply nodup_ids_cons.mpr ⟨_, ih ht hrest⟩
      rw [← count_pos_iff_mem] at hlock ⊢
      rw [count_congr (find?_of_acquire? ht (Ne.symm hne))]
      exact hlock

theorem IsSettled.of_acquire? (hsettled : table.IsSettled) (h : acquire? owner key table = some taken) :
    taken.IsSettled := by
  induction table generalizing taken with
  | nil =>
    rw [acquire?_nil] at h
    cases h
    simp [IsSettled, Latch.depth]
  | cons lock rest ih =>
    obtain ⟨hlock, hrest⟩ := isSettled_cons.mp hsettled
    rw [acquire?_cons] at h
    split at h
    . obtain ⟨latch, hlatch, rfl⟩ := Option.map_eq_some_iff.mp h
      apply isSettled_cons.mpr ⟨_, hrest⟩
      rw [(Latch.of_acquire? hlatch).2.1, hlock]
    . obtain ⟨t, ht, rfl⟩ := Option.map_eq_some_iff.mp h
      exact isSettled_cons.mpr ⟨hlock, ih hrest ht⟩

theorem find?_release (hne : key.id ≠ k.id) : (table.release owner key).find? k = table.find? k := by
  induction table with
  | nil => rfl
  | cons lock rest ih =>
    rw [release_cons]
    split
    . next heq => split <;> simp [find?_cons, heq, hne]
    . rw [find?_cons, find?_cons, ih]

theorem sublist_release (owner : Owner) (key : LockKey) (table : LockTable) :
    (table.release owner key).ids.Sublist table.ids := by
  induction table with
  | nil => exact List.Sublist.refl _
  | cons lock rest ih =>
    rw [release_cons]
    split
    . split
      . exact List.sublist_cons_self _ _
      . exact List.Sublist.refl _
    . exact ih.cons_cons _

theorem of_release (hids : table.ids.Nodup) (howner : table.owner? key = some owner) (heq : key.id = k.id) :
    (table.release owner key).count k + 1 = table.count k ∧
      ∀ o, (table.release owner key).owner? k = some o → o = owner := by
  induction table with
  | nil => cases howner
  | cons lock rest ih =>
    obtain ⟨hlock, hrest⟩ := nodup_ids_cons.mp hids
    rw [release_cons]
    split
    . next hsame =>
      rw [owner?_cons, if_pos hsame] at howner
      split
      . next hothers =>
        -- The lock is gone, and no other one stands for the same.
        rw [hsame, heq, ← count_pos_iff_mem] at hlock
        refine ⟨by simp [Nat.eq_zero_of_not_pos hlock, count_cons, hsame, heq, hothers], ?_⟩
        intro o hrel
        exact absurd (count_pos_of_owner? hrel) hlock
      . next n hothers =>
        rw [heq] at hsame
        refine ⟨by simp [count_cons, hsame, hothers], ?_⟩
        intro o hrel
        rw [owner?_cons, if_pos hsame] at hrel
        have hold := Latch.owner?_of_release hrel
        rw [howner, Option.some.injEq] at hold
        exact hold.symm
    . next hne =>
      rw [owner?_cons, if_neg hne] at howner
      rw [heq] at hne
      simpa [owner?_cons, count_cons, hne] using ih hrest howner

theorem IsSettled.release (hsettled : table.IsSettled) (howner : table.owner? key = some owner) :
    (table.release owner key).IsSettled := by
  induction table with
  | nil => exact hsettled
  | cons lock rest ih =>
    obtain ⟨hlock, hrest⟩ := isSettled_cons.mp hsettled
    rw [release_cons]
    split
    . next hsame =>
      rw [owner?_cons, if_pos hsame] at howner
      split
      . exact hrest
      . next n hothers =>
        apply isSettled_cons.mpr ⟨_, hrest⟩
        have hdepth := Latch.depth_release howner
        dsimp only
        omega
    . next hne =>
      rw [owner?_cons, if_neg hne] at howner
      exact isSettled_cons.mpr ⟨hlock, ih hrest howner⟩

/-! ## Several locks -/

/-- Takes keys one after the other, or tells the first one that somebody else holds. -/
def acquireAll (owner : Owner) : List LockKey → LockTable → Except LockKey LockTable
  | [], table => .ok table
  | key :: keys, table =>
    match acquire? owner key table with
    | some table => acquireAll owner keys table
    | none => .error key

theorem releaseAll_of_acquireAll (h : acquireAll owner keys table = .ok taken) :
    taken.releaseAll owner keys = table := by
  induction keys generalizing table with
  | nil =>
    cases h
    rfl
  | cons key keys ih =>
    unfold acquireAll at h
    split at h
    . next t ht => exact (congrArg (release owner key) (ih h)).trans (release_of_acquire? ht)
    . cases h

theorem find?_of_acquireAll (h : acquireAll owner keys table = .ok taken) (hk : k.id ∉ keys.map (·.id)) :
    taken.find? k = table.find? k := by
  induction keys generalizing table with
  | nil =>
    cases h
    rfl
  | cons key keys ih =>
    rw [List.map_cons, List.mem_cons, not_or] at hk
    unfold acquireAll at h
    split at h
    . next t ht => rw [ih h hk.2, find?_of_acquire? ht (Ne.symm hk.1)]
    . cases h

theorem of_acquireAll (h : acquireAll owner keys table = .ok taken) (hkeys : (keys.map (·.id)).Nodup)
    (hk : k.id ∈ keys.map (·.id)) :
    taken.owner? k = some owner ∧ taken.count k = table.count k + 1 ∧
      ∀ o, table.owner? k = some o → o = owner := by
  induction keys generalizing table with
  | nil => cases hk
  | cons key keys ih =>
    rw [List.map_cons, List.nodup_cons] at hkeys
    unfold acquireAll at h
    split at h
    . next t ht =>
      by_cases heq : key.id = k.id
      . rw [heq] at hkeys
        have hrest := find?_of_acquireAll h hkeys.1
        rw [owner?_congr hrest, count_congr hrest]
        exact of_acquire? ht heq
      . have hfirst := find?_of_acquire? ht heq
        have hrest := ih h hkeys.2 ((List.mem_cons.mp hk).resolve_left (Ne.symm heq))
        rw [owner?_congr hfirst, count_congr hfirst] at hrest
        exact hrest
    . cases h

theorem nodup_of_acquireAll (h : acquireAll owner keys table = .ok taken) (hids : table.ids.Nodup) :
    taken.ids.Nodup := by
  induction keys generalizing table with
  | nil =>
    cases h
    exact hids
  | cons key keys ih =>
    unfold acquireAll at h
    split at h
    . next t ht => exact ih h (nodup_of_acquire? ht hids)
    . cases h

theorem IsSettled.of_acquireAll (hsettled : table.IsSettled) (h : acquireAll owner keys table = .ok taken) :
    taken.IsSettled := by
  induction keys generalizing table with
  | nil =>
    cases h
    exact hsettled
  | cons key keys ih =>
    unfold acquireAll at h
    split at h
    . next t ht => exact ih (hsettled.of_acquire? ht) h
    . cases h

theorem find?_releaseAll (hk : k.id ∉ keys.map (·.id)) : (table.releaseAll owner keys).find? k = table.find? k := by
  induction keys with
  | nil => rfl
  | cons key keys ih =>
    rw [List.map_cons, List.mem_cons, not_or] at hk
    exact (find?_release (Ne.symm hk.1)).trans (ih hk.2)

theorem sublist_releaseAll (owner : Owner) (keys : List LockKey) (table : LockTable) :
    (table.releaseAll owner keys).ids.Sublist table.ids := by
  induction keys with
  | nil => exact List.Sublist.refl _
  | cons key keys ih => exact (sublist_release owner key _).trans ih

theorem of_releaseAll (hids : table.ids.Nodup) (hkeys : (keys.map (·.id)).Nodup)
    (howner : ∀ key ∈ keys, table.owner? key = some owner) (hk : k.id ∈ keys.map (·.id)) :
    (table.releaseAll owner keys).count k + 1 = table.count k ∧
      ∀ o, (table.releaseAll owner keys).owner? k = some o → o = owner := by
  induction keys with
  | nil => cases hk
  | cons key keys ih =>
    rw [List.map_cons, List.nodup_cons] at hkeys
    rw [List.forall_mem_cons] at howner
    have hnodup := hids.sublist (sublist_releaseAll owner keys table)
    by_cases heq : key.id = k.id
    . have hkey : (table.releaseAll owner keys).find? key = table.find? key := find?_releaseAll hkeys.1
      have hrest : (table.releaseAll owner keys).find? k = table.find? k := find?_releaseAll (heq ▸ hkeys.1)
      rw [← count_congr hrest]
      exact of_release hnodup ((owner?_congr hkey).trans howner.1) heq
    . have hfirst : (table.releaseAll owner (key :: keys)).find? k = (table.releaseAll owner keys).find? k :=
        find?_release heq
      rw [owner?_congr hfirst, count_congr hfirst]
      exact ih hkeys.2 howner.2 ((List.mem_cons.mp hk).resolve_left (Ne.symm heq))

theorem IsSettled.releaseAll (hsettled : table.IsSettled) (hkeys : (keys.map (·.id)).Nodup)
    (howner : ∀ key ∈ keys, table.owner? key = some owner) : (table.releaseAll owner keys).IsSettled := by
  induction keys with
  | nil => exact hsettled
  | cons key keys ih =>
    rw [List.map_cons, List.nodup_cons] at hkeys
    rw [List.forall_mem_cons] at howner
    apply (ih hkeys.2 howner.2).release
    rw [owner?_congr (find?_releaseAll hkeys.1)]
    exact howner.1

theorem acquireAll_of_find? (h : keys.find? (table.denies owner) = some key) :
    acquireAll owner keys table = .error key := by
  induction keys generalizing table with
  | nil => cases h
  | cons k keys ih =>
    unfold acquireAll
    rw [List.find?_cons] at h
    cases hk : acquire? owner k table with
    | none =>
      rw [acquire?_eq_none_iff_denies.mp hk] at h
      cases h
      rfl
    | some taken =>
      rw [denies_of_acquire? hk] at h
      apply ih
      rw [denies_after_acquire? hk]
      exact h

theorem exists_acquireAll_of_find? (h : keys.find? (table.denies owner) = none) :
    ∃ taken, acquireAll owner keys table = .ok taken := by
  induction keys generalizing table with
  | nil => exact ⟨table, rfl⟩
  | cons k keys ih =>
    unfold acquireAll
    rw [List.find?_cons] at h
    cases hk : acquire? owner k table with
    | none =>
      rw [acquire?_eq_none_iff_denies.mp hk] at h
      cases h
    | some taken =>
      rw [denies_of_acquire? hk] at h
      apply ih
      rw [denies_after_acquire? hk]
      exact h

theorem isOk_acquireAll_iff :
    (acquireAll owner keys table).isOk ↔ ∀ key ∈ keys, ∀ o, table.owner? key = some o → o = owner := by
  cases hfind : keys.find? (table.denies owner) with
  | some key =>
    obtain ⟨o, ho, hne⟩ := denies_iff.mp (List.find?_some hfind)
    rw [acquireAll_of_find? hfind]
    apply iff_of_false Bool.false_ne_true
    intro h
    exact hne (h key (List.mem_of_find?_eq_some hfind) o ho)
  | none =>
    obtain ⟨taken, ht⟩ := exists_acquireAll_of_find? hfind
    rw [ht]
    apply iff_of_true rfl
    intro key hkey o ho
    by_contra hne
    exact List.find?_eq_none.mp hfind key hkey (denies_iff.mpr ⟨o, ho, hne⟩)

end

end LockTable

end StageGate
