import Mathlib.Algebra.Order.Ring.Unbundled.Rat
import StageGate.Proofs.Breakdowns
import StageGate.Proofs.Errands
import StageGate.Proofs.Timeouts

/-!
This module contains what the operations on entries do while others hold locks: an operation times out at the first
key that it needs and somebody else holds, and if there is none it does what it does while no lock is held at all.
-/

namespace StageGate

/-! ## Keys that others hold -/

namespace LockTable

/-- Whether somebody else than the services holds a key. -/
def withholds (table : LockTable) (key : LockKey) : Bool :=
  (table.owner? key).any (· ≠ .service)

end LockTable

/-- A fault that says which key was waited for in vain; only the key of a stage has one. -/
inductive Fault.Names : Fault → LockKey → Prop where
  | entry {lead pipeline seconds : Value} :
    Names (.refused (.timedOut lead pipeline seconds .null)) (.entry lead pipeline)
  | stage {lead pipeline seconds id : Value} : Names (.refused (.timedOut lead pipeline seconds id)) (.stage id)

theorem Fault.Names.isTimeout {e : Fault} {key : LockKey} (h : e.Names key) : e.IsTimeout := by
  cases h <;> exact ⟨_, _, _, _, rfl⟩

theorem Waiter.fault_eq {wait : Wait} (hends : wait ≠ .null) (w : Waiter) :
    w.fault wait = .refused (.timedOut w.lead w.pipeline wait w.stage) := by
  cases wait with
  | null => exact absurd rfl hends
  | _ => rfl

theorem Waiter.names_fault {w : Waiter} {key : LockKey} {wait : Wait} (h : key.Names w) (hends : wait ≠ .null) :
    (w.fault wait).Names key := by
  rw [Waiter.fault_eq hends]
  cases key with
  | entry lead pipeline =>
    cases h
    exact .entry
  | stage id =>
    cases h
    exact .stage

/-! ## Operations that have nothing to do with locks -/

namespace Operation

section

variable {α β : Type}

/-- An operation that neither looks at the locks nor changes them. -/
structure IsAside (op : Operation α) : Prop where
  blind : ∀ s locks, op { s with locks } = ((op s).1, { (op s).2 with locks })
  prompt : ∀ s, Prompt (op s).1

theorem isAside_pure (a : α) : IsAside (pure a) :=
  ⟨fun _ _ => rfl, fun _ => ends_ok a⟩

theorem isAside_throw {e : Fault} (h : e.IsPrompt) : IsAside (throw e : Operation α) :=
  ⟨fun _ _ => rfl, fun _ => ends_error.mpr h⟩

theorem isAside_bind {op : Operation β} {f : β → Operation α} (ho : op.IsAside) (hf : ∀ b, (f b).IsAside) :
    IsAside (op >>= f) := by
  constructor
  . intro s locks
    have hblind := ho.blind s locks
    rcases hop : op s with ⟨r, s'⟩
    rw [hop] at hblind
    cases r with
    | ok b =>
      rw [bind_of_ok hblind, bind_of_ok hop]
      exact (hf b).blind s' locks
    | error e => rw [bind_of_error hblind, bind_of_error hop]
  . intro s
    have hprompt := ho.prompt s
    rcases hop : op s with ⟨r, s'⟩
    rw [hop] at hprompt
    cases r with
    | ok b =>
      rw [bind_of_ok hop]
      exact (hf b).prompt s'
    | error e =>
      rw [bind_of_error hop]
      exact ends_error.mpr (hprompt e rfl)

theorem isAside_reading {g : Store → Except Fault α} (hg : ∀ s, Prompt (g s)) : IsAside (reading g) := by
  constructor
  . intro s locks
    rw [reading_eq, reading_eq]
  . intro s
    rw [reading_eq]
    exact hg s.store

theorem isAside_commit {t : Transaction α} (ht : t.IsPrompt) : IsAside (commit t) := by
  constructor
  . intro s locks
    rw [commit_eq, commit_eq]
    dsimp only
    cases t s.store <;> rfl
  . intro s e he
    rw [commit_eq] at he
    cases h : t s.store with
    | ok r =>
      rw [h] at he
      cases he
    | error f =>
      rw [h] at he
      cases he
      exact ht s.store e h

theorem isAside_loadChecks (stage : Int) : IsAside (loadChecks stage) := by
  constructor
  . intro s locks
    rw [loadChecks_eq, loadChecks_eq]
    dsimp only
    split <;> rfl
  . intro s e he
    rw [loadChecks_eq] at he
    cases h : s.cache.load stage (s.store.sourcesOf stage) with
    | ok r =>
      rw [h] at he
      cases he
    | error f =>
      rw [h] at he
      cases he
      exact (CriteriaCache.plain_load _ _ _ e h).isPrompt

end

end Operation

namespace Advancement

open Operation

variable {c : Call} {e : Entry} {k : Knowledge}

theorem isAside_evaluateExit : (evaluateExit c e k).IsAside := by
  unfold evaluateExit
  apply isAside_bind (isAside_loadChecks e.stage)
  intro checks
  apply isAside_reading
  simp

theorem isAside_advanceHeld {target note : Value} : (advanceHeld c e target k note).IsAside := by
  unfold advanceHeld
  apply isAside_bind
  . unfold requireActive
    split
    . exact isAside_pure ()
    . exact isAside_throw (by simp)
  intro _
  apply isAside_bind (isAside_reading (by simp))
  intro stage
  apply isAside_bind (isAside_reading (by simp))
  intro current
  apply isAside_bind isAside_evaluateExit
  rintro ⟨verdict, sla⟩
  dsimp only
  split
  . exact isAside_commit (Transaction.composes_isPrompt c.now).move
  . apply isAside_bind (isAside_reading (by simp))
    intro view
    exact isAside_pure _

end Advancement

/-! ## Operations that need keys -/

namespace Operation

section

variable {α β : Type} {s : Service} {wait : Wait} {keys : List LockKey} {op : Operation α}

/--
An operation that needs keys, in the order in which it takes them: it stops at the first of them that somebody else
holds, and otherwise it does the same whatever the locks are, which it leaves as they are.
-/
structure Needs (op : Operation α) (s : Service) (wait : Wait) (keys : List LockKey) : Prop where
  blocked : ∀ locks key, keys.find? locks.table.withholds = some key → ∃ w left, key.Names w ∧
    (wait ≠ .null → left ≠ .null) ∧ op { s with locks } = (.error (w.fault left), { s with locks })
  free : ∃ (r : Except Fault α) (after : Service), Prompt r ∧ ∀ locks, keys.find? locks.table.withholds = none →
    op { s with locks } = (r, { after with locks })

theorem Needs.names (h : op.Needs s wait keys) (hends : wait ≠ .null) {key : LockKey}
    (hkey : keys.find? s.locks.table.withholds = some key) : ∃ e, e.Names key ∧ op s = (.error e, s) := by
  obtain ⟨w, left, hw, hleft, hop⟩ := h.blocked s.locks key hkey
  exact ⟨w.fault left, Waiter.names_fault hw (hleft hends), hop⟩

theorem Needs.isTimeout_iff (h : op.Needs s wait keys) (hends : wait ≠ .null) :
    (∃ e, (op s).1 = .error e ∧ e.IsTimeout) ↔ ∃ key ∈ keys, s.locks.table.withholds key := by
  cases hfind : keys.find? s.locks.table.withholds with
  | some key =>
    obtain ⟨e, hnames, hop⟩ := h.names hends hfind
    rw [hop]
    exact iff_of_true ⟨e, rfl, hnames.isTimeout⟩ ⟨key, List.mem_of_find?_eq_some hfind, List.find?_some hfind⟩
  | none =>
    obtain ⟨r, after, hprompt, hop⟩ := h.free
    have hop : op s = (r, { after with locks := s.locks }) := hop s.locks hfind
    rw [hop]
    rw [List.find?_eq_none] at hfind
    apply iff_of_false
    . rintro ⟨e, he, htimeout⟩
      exact hprompt e he htimeout
    . rintro ⟨key, hkey, hheld⟩
      exact hfind key hkey hheld

theorem Needs.eq_of_free (h : op.Needs s wait keys) (hfree : ∀ key ∈ keys, ¬s.locks.table.withholds key) :
    op s = ((op { s with locks := .empty }).1, { (op { s with locks := .empty }).2 with locks := s.locks }) := by
  obtain ⟨r, after, -, hop⟩ := h.free
  rw [hop .empty (List.find?_eq_none.mpr fun _ _ => Bool.false_ne_true)]
  exact hop s.locks (List.find?_eq_none.mpr hfree)

theorem IsAside.needs (h : op.IsAside) (s : Service) : op.Needs s wait [] := by
  constructor
  . intro locks key hkey
    cases hkey
  . exact ⟨(op s).1, (op s).2, h.prompt s, fun locks _ => h.blind s locks⟩

theorem Needs.bind {f : α → Operation β} (h : op.Needs s wait keys) (hf : ∀ a, (f a).IsAside) :
    (op >>= f).Needs s wait keys := by
  constructor
  . intro locks key hkey
    obtain ⟨w, left, hw, hleft, hop⟩ := h.blocked locks key hkey
    exact ⟨w, left, hw, hleft, bind_of_error hop f⟩
  . obtain ⟨r, after, hprompt, hop⟩ := h.free
    cases r with
    | error e =>
      refine ⟨.error e, after, ends_error.mpr (hprompt e rfl), ?_⟩
      intro locks hfree
      exact bind_of_error (hop locks hfree) f
    | ok a =>
      refine ⟨(f a after).1, (f a after).2, (hf a).prompt after, ?_⟩
      intro locks hfree
      rw [bind_of_ok (hop locks hfree)]
      exact (hf a).blind after locks

theorem needs_of_read {g : Store → Except Fault β} {b : β} {f : β → Operation α} (hg : g s.store = .ok b)
    (hf : (f b).Needs s wait keys) : (reading g >>= f).Needs s wait keys := by
  have hread : ∀ locks, (reading g >>= f) { s with locks } = f b { s with locks } :=
    fun locks => bind_of_read (s := { s with locks }) hg f
  constructor
  . intro locks key hkey
    rw [hread]
    exact hf.blocked locks key hkey
  . obtain ⟨r, after, hprompt, hop⟩ := hf.free
    refine ⟨r, after, hprompt, ?_⟩
    intro locks hfree
    rw [hread]
    exact hop locks hfree

theorem needs_of_fault {g : Store → Except Fault β} {e : Fault} (f : β → Operation α) (hg : g s.store = .error e)
    (he : e.IsPrompt) : (reading g >>= f).Needs s wait [] := by
  constructor
  . intro locks key hkey
    cases hkey
  . refine ⟨.error e, s, ends_error.mpr he, ?_⟩
    intro locks _
    apply bind_of_error
    rw [reading_eq, hg]

variable {key : LockKey} {waiter : Waiter} {left : Wait}

theorem needs_holdingKey (hkey : key.isUsable) (hcheck : left.check = .ok ()) (hends : wait ≠ .null → left ≠ .null)
    (hnames : key.Names waiter) (hop : op.Needs s wait keys) :
    (holdingKey key waiter left op).Needs s wait (key :: keys) := by
  -- What others hold of the other keys is the same after this one is taken.
  have hafter : ∀ locks : Registry, ¬locks.table.withholds key →
      ∃ taken, LockTable.acquire? .service key locks.table = some taken ∧ taken.withholds = locks.table.withholds := by
    intro locks hfree
    cases ht : LockTable.acquire? .service key locks.table with
    | none => exact absurd (LockTable.acquire?_eq_none_iff_denies.mp ht) hfree
    | some taken => exact ⟨taken, rfl, LockTable.denies_after_acquire? ht⟩
  constructor
  . intro locks k hk
    rw [List.find?_cons] at hk
    split at hk
    . next hheld =>
      cases hk
      have hnone := LockTable.acquire?_eq_none_iff_denies.mpr hheld
      exact ⟨waiter, left, hnames, hends, holdingKey_of_taken (s := { s with locks }) hkey hcheck hnone⟩
    . next hfree =>
      obtain ⟨taken, ht, hsame⟩ := hafter locks (by simp [hfree])
      rw [← hsame] at hk
      obtain ⟨w, rest, hw, hrest, hbody⟩ := hop.blocked { locks with table := taken } k hk
      exact ⟨w, rest, hw, hrest, holdingKey_of_free (s := { s with locks }) hkey hcheck ht hbody⟩
  . obtain ⟨r, after, hprompt, hbody⟩ := hop.free
    refine ⟨r, after, hprompt, ?_⟩
    intro locks hnone
    rw [List.find?_cons] at hnone
    split at hnone
    . cases hnone
    . next hfree =>
      obtain ⟨taken, ht, hsame⟩ := hafter locks (by simp [hfree])
      rw [← hsame] at hnone
      exact holdingKey_of_free (s := { s with locks }) hkey hcheck ht (hbody { locks with table := taken } hnone)

theorem needs_holdingKeys (hkeys : LockKey.areOrdered keys) (hwait : wait.IsValid) (hop : op.IsAside) :
    (holdingKeys keys wait op).Needs s wait (LockKey.sorted keys) := by
  obtain ⟨left, hleft, hcheck⟩ := hwait.left
  constructor
  . intro locks key hkey
    have hfound := LockTable.acquireAll_of_find? hkey
    exact ⟨key.waiter, wait, key.names_waiter, id,
      holdingKeys_of_taken (s := { s with locks }) hkeys hleft hcheck hfound⟩
  . refine ⟨(op s).1, (op s).2, hop.prompt s, ?_⟩
    intro locks hnone
    obtain ⟨taken, ht⟩ := LockTable.exists_acquireAll_of_find? hnone
    exact holdingKeys_of_free (s := { s with locks }) hkeys hleft hcheck ht (hop.blind s { locks with table := taken })

end

end Operation

/-! ## Waits -/

namespace Binary64

variable {x : Binary64} {n : Int}

theorem units_ofInt_nonpos (h : n < 0) : (ofInt n).units ≤ 0 := by
  unfold ofInt ofRatio
  dsimp only
  split <;> simp [units, h]

theorem units_nonpos_of_le_zero (hx : x.isFinite) (h : x.le .zero) : x.units ≤ 0 := by
  cases x with
  | infinite | nan => cases hx
  | finite sign units =>
    simp only [le, lt, eq, zero, Bool.or_eq_true, decide_eq_true_eq, beq_iff_eq] at h
    rcases h with h | h
    . exact Int.le_of_lt h
    . exact Int.le_of_eq h

theorem units_nonpos_of_lt_zero (hx : x.isFinite) (h : x.magnitude.lt (.ofInt 0)) : x.units ≤ 0 := by
  cases x with
  | infinite | nan => cases hx
  | finite sign units =>
    simp only [magnitude, Magnitude.ofInt, Magnitude.lt, decide_eq_true_eq, Rat.intCast_zero] at h
    exact Int.le_of_lt ((Rat.mkRat_neg_iff _ one_pos.ne').mp h)

theorem eq_ofInt_of_toFloat (h : (Value.int n).toFloat = .ok x) : x = ofInt n := by
  simp only [Value.toFloat, Value.whole?] at h
  cases hn : ofInt n <;> rw [hn] at h <;> cases h <;> rfl

end Binary64

namespace Wait

/-- Seconds that are a finite number. -/
structure IsFinite (w : Wait) : Prop where
  binary : ∀ d, w ≠ .decimal d
  seconds : ∃ x, w.toFloat = .ok x ∧ x.isFinite

/-- Seconds that a lock can be waited for: a number that is finite, and less than `2 ^ 63` nanoseconds. -/
structure IsBounded (w : Wait) : Prop where
  binary : ∀ d, w ≠ .decimal d
  seconds : ∃ x, w.toFloat = .ok x ∧ x.isFinite ∧ x.units * Nat.pow 10 9 < (Nat.pow 2 63 * Binary64.one : Nat)

variable {w : Wait}

theorem checkLength_of_lt {x : Binary64} (h : x.units * Nat.pow 10 9 < (Nat.pow 2 63 * Binary64.one : Nat)) :
    checkLength x = .ok () :=
  if_neg (Int.not_le.mpr h)

theorem checkLength_of_nonpos {x : Binary64} (h : x.units ≤ 0) : checkLength x = .ok () := by
  apply checkLength_of_lt
  have hpos : 0 < Nat.pow 2 63 * Binary64.one := by decide +kernel
  have hnonpos : x.units * Nat.pow 10 9 ≤ 0 := Int.mul_nonpos_of_nonpos_of_nonneg h (Int.natCast_nonneg _)
  omega

/-- Less than nothing is not waited for, and of all other seconds the length is looked at. -/
theorem check_eq {x : Binary64} (hbinary : ∀ d, w ≠ .decimal d) (hx : w.toFloat = .ok x) (hfinite : x.isFinite) :
    w.check = checkLength x := by
  have hdone : ∀ negative : Bool, (negative → x.units ≤ 0) →
      (if negative then pure () else checkLength x) = checkLength x := by
    intro negative hneg
    cases negative with
    | true => exact (checkLength_of_nonpos (hneg rfl)).symm
    | false => rfl
  unfold Wait.check
  cases w with
  | null | text | list | object => cases hx
  | decimal d => exact absurd rfl (hbinary d)
  | bool b =>
    have hlt : (Value.bool b).lt (.int 0) = .ok false := by
      cases b <;> decide +kernel
    dsimp only
    rw [hlt, ok_bind, hx]
    rfl
  | int n =>
    dsimp only
    rw [Value.lt, ok_bind, hx]
    apply hdone
    intro hneg
    rw [Binary64.eq_ofInt_of_toFloat hx]
    exact Binary64.units_ofInt_nonpos (of_decide_eq_true hneg)
  | float y =>
    cases hx
    cases x with
    | infinite | nan => cases hfinite
    | finite sign units =>
      have hlt : (Value.float (.finite sign units)).lt (.int 0) =
          .ok ((Binary64.finite sign units).magnitude.lt (.ofInt 0)) := rfl
      dsimp only
      rw [hlt, ok_bind]
      exact hdone _ (Binary64.units_nonpos_of_lt_zero rfl)

theorem left_eq {x : Binary64} (hbinary : ∀ d, w ≠ .decimal d) (hx : w.toFloat = .ok x) :
    w.left = .ok (if x.le .zero then .int 0 else .float x) := by
  cases w with
  | null | text | list | object => cases hx
  | decimal d => exact absurd rfl (hbinary d)
  | bool | int | float =>
    unfold left
    dsimp only
    rw [hx]
    rfl

theorem IsFinite.ne_null (h : w.IsFinite) : w ≠ .null := by
  rintro rfl
  obtain ⟨x, hx, -⟩ := h.seconds
  cases hx

/-- What is left of finite seconds before any time has passed can be waited for if and only if they can. -/
theorem IsFinite.exists_left (h : w.IsFinite) : ∃ left, w.left = .ok left ∧ Wait.check left = w.check := by
  obtain ⟨x, hx, hfinite⟩ := h.seconds
  refine ⟨_, left_eq h.binary hx, ?_⟩
  rw [check_eq h.binary hx hfinite]
  split
  . next hle =>
    rw [checkLength_of_nonpos (Binary64.units_nonpos_of_le_zero hfinite hle)]
    decide +kernel
  . exact check_eq (fun _ => by simp) rfl hfinite

theorem IsFinite.check_of_long (h : w.IsFinite) (hlong : ¬w.IsBounded) : w.check = .error (.broken .tooLarge) := by
  obtain ⟨x, hx, hfinite⟩ := h.seconds
  rw [check_eq h.binary hx hfinite]
  apply if_pos
  by_contra hlength
  exact hlong ⟨h.binary, x, hx, hfinite, Int.not_le.mp hlength⟩

theorem IsBounded.isFinite (h : w.IsBounded) : w.IsFinite := by
  obtain ⟨x, hx, hfinite, -⟩ := h.seconds
  exact ⟨h.binary, x, hx, hfinite⟩

theorem IsBounded.check (h : w.IsBounded) : w.check = .ok () := by
  obtain ⟨x, hx, hfinite, hlength⟩ := h.seconds
  rw [check_eq h.binary hx hfinite, checkLength_of_lt hlength]

theorem IsBounded.isValid (h : w.IsBounded) : w.IsValid := by
  obtain ⟨left, hleft, hcheck⟩ := h.isFinite.exists_left
  exact ⟨h.check, left, hleft, hcheck.trans h.check⟩

end Wait

/-! ## What commands need -/

namespace Command

open Operation

/-- The keys of an errand, if there is one. -/
def needed (s : Store) : Except Fault (Option Errand) → List LockKey
  | .ok (some e) => e.needs s
  | _ => []

/-- An errand with keys that can be sorted, if there is one. -/
def IsSortable (x : Except Fault (Option Errand)) : Prop :=
  ∀ e, x = .ok (some e) → LockKey.areOrdered e.keys

section

variable {α β : Type} {s : Service} {c : Call} {caller : Caller} {entry pipeline reason note : Value}

theorem mem_needed_iff {s : Store} {x : Except Fault (Option Errand)} {key : LockKey} :
    key ∈ needed s x ↔ ∃ e, x = .ok (some e) ∧ key ∈ e.needs s := by
  rcases x with f | _ | e <;> simp [needed]

theorem needed_keys {s : Store} (keys : List LockKey) :
    needed s (pure (some ⟨keys, none⟩)) = LockKey.sorted keys :=
  List.append_nil _

theorem needed_move {s : Store} (key : LockKey) (target : Value) :
    needed s (pure (some ⟨[key], some target⟩)) = key :: Errand.limitKeys target s :=
  rfl

theorem needs_reading_bind {g : Store → Except Fault β} {f : β → Operation α} {wait : Wait}
    {errand : β → Except Fault (Option Errand)} (hg : Prompt (g s.store)) (hkeys : IsSortable (g s.store >>= errand))
    (hf : ∀ b, IsSortable (errand b) → (f b).Needs s wait (needed s.store (errand b))) :
    (reading g >>= f).Needs s wait (needed s.store (g s.store >>= errand)) := by
  cases h : g s.store with
  | ok b =>
    rw [h] at hkeys
    exact needs_of_read h (hf b hkeys)
  | error e => exact needs_of_fault f h (hg e h)

theorem needs_reading_capped {target : Value} {f : Option Stage → Operation α} {wait : Wait} (hnone : (f none).IsAside)
    (hsome : ∀ stage, (f (some stage)).Needs s wait [.stage (.int stage.id)]) :
    (reading (Advancement.cappedStage? target) >>= f).Needs s wait (Errand.limitKeys target s.store) := by
  unfold Errand.limitKeys Errand.capacityKey?
  cases h : Advancement.cappedStage? target s.store with
  | error e => exact needs_of_fault f h (Advancement.plain_cappedStage? target s.store e h).isPrompt
  | ok stage? =>
    apply needs_of_read h
    cases stage? with
    | none => exact hnone.needs s
    | some stage => exact hsome stage

variable (hwait : c.wait.IsValid)

include hwait

theorem needs_enroll {lead : Value} (hkeys : IsSortable (errand? s.store (.enroll caller lead pipeline note))) :
    (Enrollment.enroll c lead pipeline note).Needs s c.wait
      (needed s.store (errand? s.store (.enroll caller lead pipeline note))) := by
  have hprompt := Transaction.composes_isPrompt c.now
  unfold Enrollment.enroll
  apply needs_reading_bind (by simp) hkeys
  intro l hkeys
  apply needs_reading_bind (by simp) hkeys
  intro p hkeys
  have husable := LockKey.isUsable_of_areOrdered (hkeys _ rfl) _ List.mem_cons_self
  apply (needs_holdingKey husable hwait.check id (LockKey.names_waiter _) _).bind
  . intro e
    exact isAside_reading (by simp)
  . exact (isAside_commit (hprompt.refusing hprompt.openRecorded)).needs s

theorem needs_enrollMany {leads : Value} {skipExisting : Bool}
    (hkeys : IsSortable (errand? s.store (.enrollMany caller leads pipeline skipExisting note))) :
    (Enrollment.enrollMany c leads pipeline skipExisting note).Needs s c.wait
      (needed s.store (errand? s.store (.enrollMany caller leads pipeline skipExisting note))) := by
  unfold Enrollment.enrollMany
  unfold errand? at hkeys ⊢
  dsimp only at hkeys ⊢
  rw [← bind_assoc (m := Except Fault)] at hkeys ⊢
  apply needs_reading_bind (by simp) hkeys
  intro names hkeys
  apply needs_reading_bind (by simp) hkeys
  intro p hkeys
  split
  . exact (isAside_pure _).needs s
  . next hsome =>
    rw [if_neg hsome] at hkeys
    apply needs_reading_bind (by simp) hkeys
    intro leads hkeys
    rw [needed_keys]
    apply (needs_holdingKeys (hkeys _ rfl) hwait _).bind
    . rintro ⟨entries, skips⟩
      apply isAside_bind (isAside_reading _)
      . intro views
        exact isAside_pure _
      . intro s
        exact prompt_of_plain (ends_mapM fun _ _ => by simp)
    . exact isAside_commit (Transaction.composes_isPrompt c.now).openEach

theorem needs_archive (hkeys : IsSortable (errand? s.store (.archive caller entry reason))) :
    (Closing.archive c entry reason).Needs s c.wait
      (needed s.store (errand? s.store (.archive caller entry reason))) := by
  unfold Closing.archive
  apply needs_reading_bind (by simp) hkeys
  intro e _
  apply (needs_holdingKey rfl hwait.check id (LockKey.names_waiter _) _).bind
  . intro closed
    exact isAside_reading (by simp)
  . exact (isAside_commit (Transaction.composes_isPrompt c.now).archiveRecorded).needs s

theorem needs_transfer (hkeys : IsSortable (errand? s.store (.transfer caller entry pipeline reason note))) :
    (Closing.transfer c entry pipeline reason note).Needs s c.wait
      (needed s.store (errand? s.store (.transfer caller entry pipeline reason note))) := by
  have hprompt := Transaction.composes_isPrompt c.now
  unfold Closing.transfer
  apply needs_reading_bind (by simp) hkeys
  intro e hkeys
  apply needs_reading_bind (by simp) hkeys
  intro p hkeys
  rw [needed_keys]
  apply (needs_holdingKeys (hkeys _ rfl) hwait _).bind
  . rintro ⟨closed, opened⟩
    exact isAside_reading (by simp)
  . exact isAside_commit (hprompt.refusing hprompt.transferRecorded)

theorem needs_advance {target : Value} {knowledge : Advancement.Knowledge}
    (hkeys : IsSortable (errand? s.store (.advance caller entry target knowledge note))) :
    (Advancement.advance c entry target knowledge note).Needs s c.wait
      (needed s.store (errand? s.store (.advance caller entry target knowledge note))) := by
  obtain ⟨left, hleft, hcheck⟩ := hwait.left
  unfold Advancement.advance
  apply needs_reading_bind (by simp) hkeys
  intro e _
  apply needs_of_read hleft
  rw [needed_move]
  apply needs_holdingKey rfl hwait.check id (LockKey.names_waiter _)
  apply needs_reading_capped
  . exact Advancement.isAside_advanceHeld
  . intro stage
    refine needs_holdingKey rfl hcheck (fun hends => Wait.ne_null_of_left hends hleft) ?_ ?_
    . rfl
    . exact Advancement.isAside_advanceHeld.needs s

end

section

variable {k : Command} {caller : Caller} {env : Environment} {s : Service}

/-- The keys of its errand are what an operation takes, and this is their order. -/
theorem needs_run (hcaller : k.caller? = some caller) (hwait : (run.call env caller).wait.IsValid)
    (hkeys : IsSortable (k.errand? s.store)) :
    (k.run env).Needs s (run.call env caller).wait (needed s.store (k.errand? s.store)) := by
  cases k <;> simp only [caller?, Option.some.injEq, reduceCtorEq] at hcaller <;> subst hcaller
  case enroll => exact (needs_enroll hwait hkeys).bind fun _ => isAside_pure _
  case enrollMany => exact (needs_enrollMany hwait hkeys).bind fun _ => isAside_pure _
  case advance => exact (needs_advance hwait hkeys).bind fun _ => isAside_pure _
  case archive => exact (needs_archive hwait hkeys).bind fun _ => isAside_pure _
  case transfer => exact (needs_transfer hwait hkeys).bind fun _ => isAside_pure _

end

/-- The ids that keys are made of are integers, as they are declared. -/
def NamesInts : Command → Prop
  | .enroll _ lead pipeline _ => ∃ l p : Int, lead = .int l ∧ pipeline = .int p
  | .enrollMany _ leads pipeline _ _ => ∃ (ids : List Int) (p : Int), leads = .list (ids.map .int) ∧ pipeline = .int p
  | .transfer _ _ pipeline _ _ => ∃ p : Int, pipeline = .int p
  | _ => True

theorem isSortable_of_namesInts {k : Command} (hids : k.NamesInts) (s : Store) : IsSortable (k.errand? s) := by
  intro e he
  cases k <;> simp only [errand?, bind_eq_ok, pure, Except.pure, Except.ok.injEq, Option.some.injEq, reduceCtorEq] at he
  case enroll =>
    obtain ⟨l, p, rfl, rfl⟩ := hids
    obtain ⟨-, -, -, -, rfl⟩ := he
    exact LockTable.areOrdered_of_int (by simp)
  case enrollMany =>
    obtain ⟨ids, p, rfl, rfl⟩ := hids
    obtain ⟨elements, helements, names, hnames, -, -, he⟩ := he
    cases helements
    obtain rfl := Except.ok.inj (hnames.symm.trans (Enrollment.names_of_ints ids))
    split at he
    . cases he
    . obtain ⟨-, -, he⟩ := bind_eq_ok.mp he
      cases he
      exact Enrollment.areOrdered_keys _ _
  case advance | archive =>
    obtain ⟨-, -, rfl⟩ := he
    exact LockTable.areOrdered_of_int (by simp)
  case transfer =>
    obtain ⟨p, rfl⟩ := hids
    obtain ⟨-, -, -, -, rfl⟩ := he
    exact LockTable.areOrdered_of_int (by simp)

end Command

/-! ## What held keys do -/

namespace Command

variable {k : Command} {caller : Caller} {env : Environment}

/--
An operation on entries times out if and only if it gets as far as the locks and somebody else holds one of the keys
that it needs. It names the first of these and changes nothing. If nobody else holds any of them, it does what it does
while there are no locks at all. And no command leaves the locks in another state than it found them, apart from those
that are about locks.
-/
theorem withheld_keys_block (hcaller : k.caller? = some caller) (hids : k.NamesInts)
    (hwait : (run.call env caller).wait.IsBounded) (s : Service) :
    ((∃ f, (k.run env s).1 = .error f ∧ f.IsTimeout) ↔
        ∃ e, k.errand? s.store = .ok (some e) ∧ ∃ key ∈ e.needs s.store, s.locks.table.withholds key) ∧
      (∀ e key, k.errand? s.store = .ok (some e) → (e.needs s.store).find? s.locks.table.withholds = some key →
        ∃ f, f.Names key ∧ k.run env s = (.error f, s)) ∧
      ((∀ e, k.errand? s.store = .ok (some e) → ∀ key ∈ e.needs s.store, ¬s.locks.table.withholds key) →
        k.run env s = ((k.run env { s with locks := .empty }).1,
          { (k.run env { s with locks := .empty }).2 with locks := s.locks })) ∧
      ∀ k' : Command, k'.lockStep? = none → ∀ env' s', (k'.run env' s').2.locks = s'.locks := by
  have hneeds := needs_run hcaller hwait.isValid (isSortable_of_namesInts hids s.store)
  refine ⟨?_, ?_, ?_, ?_⟩
  . rw [hneeds.isTimeout_iff hwait.isFinite.ne_null]
    simp only [mem_needed_iff]
    constructor
    . rintro ⟨key, ⟨e, he, hkey⟩, hheld⟩
      exact ⟨e, he, key, hkey, hheld⟩
    . rintro ⟨e, he, key, hkey, hheld⟩
      exact ⟨key, ⟨e, he, hkey⟩, hheld⟩
  . intro e key he hkey
    rw [he] at hneeds
    exact hneeds.names hwait.isFinite.ne_null hkey
  . intro hfree
    apply hneeds.eq_of_free
    intro key hkey
    obtain ⟨e, he, hkey⟩ := mem_needed_iff.mp hkey
    exact hfree e he key hkey
  . intro k' hk' env' s'
    exact (returns_run hk' env' s'.locks).after s' rfl

end Command

namespace Service

/-- Two leads and a pipeline, in which somebody is at work on the first lead. -/
def occupied : List Turn :=
  let stages : Value := .list [.object [("name", .text "New")], .object [("name", .text "Won")]]
  Turn.allIn atWork
    [.createLead [("name", .text "Ada")], .createLead [("name", .text "Grace")],
      .createPipeline (.text "system") (.object [("name", .text "Sales"), ("stages", stages)]),
      .hold (.other "night shift") (.entry (.int 1) (.int 1)) ⟨.int 1, .int 1, .null⟩ (.int 0)] (by decide)

/-- The keys of a batch are taken as they are sorted, and not as its leads are listed. -/
theorem occupied_blocks_batch :
    let batch : Command := .enrollMany ⟨.text "system", none, .int 5⟩ (.list [.int 2, .int 1]) (.int 1) true .null
    ∃ f, f.Names (.entry (.int 1) (.int 1)) ∧ batch.run atWork (reached occupied) = (.error f, reached occupied) := by
  intro batch
  have hkeys : (batch.errand? (reached occupied).store).map (·.map (·.needs (reached occupied).store)) =
      .ok (some [.entry (.int 1) (.int 1), .entry (.int 2) (.int 1)]) := by
    decide +kernel
  obtain ⟨e?, herrand, hsome⟩ := map_eq_ok.mp hkeys
  obtain ⟨e, rfl, hneeds⟩ := Option.map_eq_some_iff.mp hsome
  have hids : batch.NamesInts := ⟨[2, 1], 1, rfl, rfl⟩
  have hwait : (Command.run.call atWork ⟨.text "system", none, .int 5⟩).wait.IsBounded :=
    ⟨nofun, Binary64.ofInt 5, by decide +kernel, by decide +kernel, by decide +kernel⟩
  apply (Command.withheld_keys_block rfl hids hwait (reached occupied)).2.1 e _ herrand
  rw [hneeds]
  decide +kernel

/-- A wait that is finite and still too long for a lock breaks, instead of going on until the time is up. -/
theorem occupied_breaks_long_wait :
    let k : Command := .enroll ⟨.text "system", none, .int 10000000000⟩ (.int 1) (.int 1) .null
    (∃ e, k.errand? (reached occupied).store = .ok (some e) ∧
        ∃ key ∈ e.needs (reached occupied).store, (reached occupied).locks.table.withholds key) ∧
      ¬∃ f, (k.run atWork (reached occupied)).1 = .error f ∧ f.IsTimeout := by
  intro k
  have hkeys : (k.errand? (reached occupied).store).map (·.map (·.needs (reached occupied).store)) =
      .ok (some [.entry (.int 1) (.int 1)]) := by
    decide +kernel
  obtain ⟨e?, herrand, hsome⟩ := map_eq_ok.mp hkeys
  obtain ⟨e, rfl, hneeds⟩ := Option.map_eq_some_iff.mp hsome
  constructor
  . refine ⟨e, herrand, .entry (.int 1) (.int 1), by simp [hneeds], ?_⟩
    decide +kernel
  . have hbroken : (k.run atWork (reached occupied)).1 = .error (.broken .tooLarge) := by
      decide +kernel
    rw [hbroken]
    rintro ⟨f, hf, htimeout⟩
    cases hf
    exact Fault.isPrompt_broken htimeout

end Service

end StageGate
