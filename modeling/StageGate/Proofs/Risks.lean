import StageGate.Proofs.Deadlines
import StageGate.Proofs.Evaluation

/-!
This module contains what computations, transactions and operations risk: a refusal is no harm, and of each
breakdown it is said whether it may come.
-/

namespace StageGate

/-- A refusal, or a breakdown of which `Q` holds. -/
def Fault.Within (Q : Breakdown → Prop) : Fault → Prop
  | .refused _ => True
  | .broken b => Q b

@[simp]
theorem Fault.within_refused {Q : Breakdown → Prop} (r : Refusal) : Fault.Within Q (.refused r) :=
  trivial

@[simp]
theorem Fault.within_broken {Q : Breakdown → Prop} {b : Breakdown} : Fault.Within Q (.broken b) ↔ Q b :=
  Iff.rfl

/-- A computation that answers, is refused, or breaks down in a way of which `Q` holds. -/
abbrev Risks {α : Type} (Q : Breakdown → Prop) (x : Except Fault α) : Prop :=
  Ends (Fault.Within Q) x

section

variable {α : Type} {Q : Breakdown → Prop} {x : Except Fault α}

theorem risks_of_ok {a : α} (h : x = .ok a) : Risks Q x := by
  rw [h]
  exact ends_ok a

theorem risks_of_exists (h : ∃ a, x = .ok a) : Risks Q x := by
  obtain ⟨a, ha⟩ := h
  exact risks_of_ok ha

theorem risks_of_refused {r : Refusal} (h : x = .error (.refused r)) : Risks Q x := by
  rw [h]
  exact ends_error.mpr trivial

theorem Risks.mono {P : Breakdown → Prop} (h : Risks P x) (himp : ∀ b, P b → Q b) : Risks Q x := by
  intro e he
  cases e with
  | refused r => trivial
  | broken b => exact himp b (h _ he)

end

/-! ## Transactions -/

namespace Transaction

section

variable {α β : Type} {Q : Breakdown → Prop} {s : Store}

def Risks (Q : Breakdown → Prop) (t : Transaction α) (s : Store) : Prop :=
  StageGate.Risks Q (t s)

theorem risks_pure (a : α) : Risks Q (pure a) s :=
  ends_ok _

theorem risks_bind {t : Transaction β} {f : β → Transaction α} (ht : Risks Q t s)
    (hf : ∀ b s', t s = .ok (b, s') → Risks Q (f b) s') : Risks Q (t >>= f) s := by
  unfold Risks at *
  rw [bind_eq]
  exact ends_bind.mpr ⟨ht, fun r hr => hf r.1 r.2 hr⟩

theorem risks_reading {g : Store → Except Fault α} (hg : StageGate.Risks Q (g s)) : Risks Q (reading g) s := by
  unfold Risks
  rw [reading_eq]
  exact ends_map.mpr hg

theorem risks_reading_bind {g : Store → Except Fault β} {f : β → Transaction α} (hg : StageGate.Risks Q (g s))
    (hf : ∀ b, g s = .ok b → Risks Q (f b) s) : Risks Q (reading g >>= f) s := by
  apply risks_bind (risks_reading hg)
  intro b s' h
  obtain ⟨hb, rfl⟩ := reading_eq_ok.mp h
  exact hf b hb

theorem risks_lift {x : Except Fault α} (hx : StageGate.Risks Q x) : Risks Q (liftM x) s := by
  cases x with
  | ok a => exact ends_ok _
  | error e => exact ends_error.mpr (hx e rfl)

theorem risks_lift_bind {x : Except Fault β} {f : β → Transaction α} (hx : StageGate.Risks Q x)
    (hf : ∀ b, x = .ok b → Risks Q (f b) s) : Risks Q (liftM x >>= f) s := by
  apply risks_bind (risks_lift hx)
  intro b s' h
  obtain ⟨hb, rfl⟩ := lift_eq_ok.mp h
  exact hf b hb

theorem risks_get_bind {f : Store → Transaction α} (hf : Risks Q (f s) s) : Risks Q (get >>= f) s :=
  hf

theorem risks_modify {f : Store → Store} : Risks Q (modify f) s :=
  ends_ok _

theorem risks_demand {holds : Bool} {e : Fault} (h : ¬holds → Fault.Within Q e) : Risks Q (demand holds e) s := by
  cases holds with
  | true => exact ends_ok _
  | false => exact ends_error.mpr (h Bool.false_ne_true)

theorem risks_addEntry {e : Entry} (h : s.admits e) : Risks Q (addEntry e) s :=
  risks_of_ok ((addEntry_eq_ok (u := ())).mpr ⟨h, rfl⟩)

theorem risks_putEntry {e : Entry} (h : s.admits e) : Risks Q (putEntry e) s :=
  risks_of_ok ((putEntry_eq_ok (u := ())).mpr ⟨h, rfl⟩)

theorem risks_record {n : Note} {time : Instant} (h : ∃ actor, signature n.actor = .ok actor) :
    Risks Q (record n time) s := by
  obtain ⟨actor, hactor⟩ := h
  exact risks_of_ok ((record_eq_ok (u := ())).mpr ⟨actor, hactor, rfl⟩)

theorem risks_refusingViolations {t : Transaction α} {refusal : String → Refusal} (h : Risks Q t s) :
    Risks Q (refusingViolations refusal t) s := by
  intro e he
  unfold refusingViolations at he
  split at he
  . cases he
    trivial
  . exact h e he

end

end Transaction

/-! ## Operations -/

namespace Operation

section

variable {α β : Type} {Q : Breakdown → Prop} {s : Service}

def Risks (Q : Breakdown → Prop) (op : Operation α) (s : Service) : Prop :=
  StageGate.Risks Q (op s).1

theorem risks_pure (a : α) : Risks Q (pure a) s :=
  ends_ok a

theorem risks_throw {r : Refusal} : Risks Q (throw (.refused r) : Operation α) s :=
  ends_error.mpr trivial

theorem risks_bind {op : Operation β} {f : β → Operation α} (ho : Risks Q op s)
    (hf : ∀ b s', op s = (.ok b, s') → Risks Q (f b) s') : Risks Q (op >>= f) s := by
  unfold Risks at *
  rcases hop : op s with ⟨r, s'⟩
  cases r with
  | ok b =>
    rw [bind_of_ok hop]
    exact hf b s' hop
  | error e =>
    rw [bind_of_error hop]
    rw [hop] at ho
    exact ends_error.mpr (ho e rfl)

theorem risks_map {op : Operation β} {f : β → α} (ho : Risks Q op s) : Risks Q (f <$> op) s := by
  rw [← bind_pure_comp]
  exact risks_bind ho fun _ _ _ => risks_pure _

theorem risks_reading {g : Store → Except Fault α} (hg : StageGate.Risks Q (g s.store)) : Risks Q (reading g) s := by
  unfold Risks
  rw [reading_eq]
  exact hg

theorem risks_reading_bind {g : Store → Except Fault β} {f : β → Operation α} (hg : StageGate.Risks Q (g s.store))
    (hf : ∀ b, g s.store = .ok b → Risks Q (f b) s) : Risks Q (reading g >>= f) s := by
  apply risks_bind (risks_reading hg)
  intro b s' h
  rw [reading_eq, Prod.mk.injEq] at h
  obtain ⟨hb, rfl⟩ := h
  exact hf b hb

theorem risks_commit {t : Transaction α} (ht : t.Risks Q s.store) : Risks Q (commit t) s := by
  intro e he
  rw [commit_eq] at he
  cases h : t s.store with
  | ok r =>
    rw [h] at he
    cases he
  | error f =>
    rw [h] at he
    cases he
    exact ht e h

theorem commit_eq_ok {t : Transaction α} {a : α} {s' : Service} (h : commit t s = (.ok a, s')) :
    t s.store = .ok (a, s'.store) := by
  rw [commit_eq] at h
  cases ht : t s.store with
  | ok r =>
    rw [ht] at h
    cases h
    rfl
  | error e =>
    rw [ht] at h
    cases h

theorem risks_commit_bind {t : Transaction β} {f : β → Operation α} (ht : t.Risks Q s.store)
    (hf : ∀ b s', t s.store = .ok (b, s'.store) → Risks Q (f b) s') : Risks Q (commit t >>= f) s :=
  risks_bind (risks_commit ht) fun b s' h => hf b s' (commit_eq_ok h)

/-- A hold risks what taking the locks does, and what is done while they are held. -/
theorem risks_holding {enter : LockTable → Except Fault Unit × LockTable} {release : LockTable → LockTable}
    {body : Operation α} (ht : StageGate.Risks Q (enter s.locks.table).1)
    (hb : ∀ locks, Risks Q body { s with locks }) : Risks Q (holding enter release body) s := by
  unfold Risks holding at *
  rcases henter : enter s.locks.table with ⟨entered, table⟩
  cases entered with
  | error e =>
    rw [henter] at ht
    exact ends_error.mpr (ht e rfl)
  | ok _ => exact hb { s.locks with table }

theorem risks_holding_commit_bind {enter : LockTable → Except Fault Unit × LockTable} {release : LockTable → LockTable}
    {t : Transaction β} {f : β → Operation α} (hl : StageGate.Risks Q (enter s.locks.table).1) (ht : t.Risks Q s.store)
    (hf : ∀ b s', t s.store = .ok (b, s'.store) → Risks Q (f b) s') :
    Risks Q (holding enter release (commit t) >>= f) s := by
  apply risks_bind (risks_holding hl fun _ => risks_commit ht)
  intro b s' h
  obtain ⟨locks, after, hcommit, hstore⟩ := exists_of_holding h
  have hdone := commit_eq_ok hcommit
  rw [hstore] at hdone
  exact hf b s' hdone

end

end Operation

/-! ## Locks -/

/-- What a call brings with it, so that only what it is about can get in its way. -/
structure Call.IsFit (c : Call) : Prop where
  actor : ∃ actor, Transaction.signature c.actor = .ok actor
  window : c.window.isNumber
  wait : c.wait.IsValid
  -- Without an end, a wait for a lock that another owner holds is no answer.
  ends : c.wait ≠ .null

namespace LockTable

variable {Q : Breakdown → Prop} {owner : Owner} {wait : Wait}

theorem risks_timeout (waiter : Waiter) (h : wait ≠ .null) : Fault.Within Q (waiter.fault wait) := by
  unfold Waiter.fault
  cases wait with
  | null => exact absurd rfl h
  | _ => trivial

theorem risks_take {table : LockTable} {key : LockKey} {waiter : Waiter} (hkey : key.isUsable)
    (hcheck : wait.check = .ok ()) (hends : wait ≠ .null) : Risks Q (table.take owner key waiter wait) := by
  unfold take
  simp only [hkey, hcheck, Bool.not_true, Bool.false_eq_true, ↓reduceIte]
  split
  . exact ends_ok _
  . exact ends_throw.mpr (risks_timeout waiter hends)

theorem risks_takeAll {table : LockTable} {keys : List LockKey} (hkeys : LockKey.areOrdered keys)
    (hwait : wait.IsValid) (hends : wait ≠ .null) : Risks Q (table.takeAll owner keys wait) := by
  obtain ⟨left, hleft, hcheck⟩ := hwait.left
  unfold takeAll
  simp only [hleft, hkeys, hcheck, bind, Except.bind, Bool.not_true, Bool.false_eq_true, ↓reduceIte]
  split
  . exact ends_ok _
  . split
    . exact ends_ok _
    . exact ends_throw.mpr (risks_timeout _ hends)

theorem risks_enter {table : LockTable} {key : LockKey} {waiter : Waiter} (hkey : key.isUsable)
    (hcheck : wait.check = .ok ()) (hends : wait ≠ .null) : Risks Q (table.enter owner key waiter wait).1 := by
  rw [enter_eq]
  exact ends_orSame.mpr (risks_take hkey hcheck hends)

theorem risks_enterAll {table : LockTable} {keys : List LockKey} (hkeys : LockKey.areOrdered keys)
    (hwait : wait.IsValid) (hends : wait ≠ .null) : Risks Q (table.enterAll owner keys wait).1 := by
  rw [enterAll_eq]
  exact ends_orSame.mpr (risks_takeAll hkeys hwait hends)

end LockTable

theorem Wait.ne_null_of_left {wait left : Wait} (hends : wait ≠ .null) (h : wait.left = .ok left) : left ≠ .null := by
  rwa [Ne, Wait.eq_null_of_left h]

/-! ## Rows that ids name -/

namespace Store

variable {Q : Breakdown → Prop} {n : Int}

theorem row?_of_require_int {α : Type} {resource : String} {row? : Int → Option α} {a : α}
    (h : Column.checkInt n = .ok ()) (ha : require resource row? (.int n) = .ok a) : row? n = some a := by
  rw [require_int h] at ha
  split at ha
  . next b hb =>
    cases ha
    exact hb
  . cases ha

theorem risks_require {α : Type} {resource : String} {row? : Int → Option α} (h : Column.checkInt n = .ok ()) :
    Risks Q (require resource row? (.int n)) := by
  rw [require_int h]
  split
  . exact ends_ok _
  . exact ends_error.mpr trivial

end Store

end StageGate
