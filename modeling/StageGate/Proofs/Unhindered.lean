import StageGate.Proofs.Turns

/-!
This module contains what operations do while nobody else holds a lock: each of them then is one
transaction from the beginning to the end, and releases the locks that it took.
-/

namespace StageGate

/-! ## Locks that nobody else holds -/

namespace LockTable

def IsFree (table : LockTable) : Prop :=
  ∀ lock ∈ table, ∀ owner ∈ lock.latch.owner?, owner = .service

theorem IsFree.of_acquire? {table taken : LockTable} {key : LockKey} (h : table.IsFree)
    (ht : acquire? .service key table = some taken) : taken.IsFree := by
  induction table generalizing taken with
  | nil =>
    rw [acquire?_nil] at ht
    cases ht
    simp [IsFree, Latch.owner?]
  | cons lock rest ih =>
    obtain ⟨hlock, hrest⟩ := List.forall_mem_cons.mp h
    rw [acquire?_cons] at ht
    split at ht
    . obtain ⟨latch, hlatch, rfl⟩ := Option.map_eq_some_iff.mp ht
      apply List.forall_mem_cons.mpr ⟨_, hrest⟩
      simp [(Latch.of_acquire? hlatch).1]
    . obtain ⟨t, hmore, rfl⟩ := Option.map_eq_some_iff.mp ht
      exact List.forall_mem_cons.mpr ⟨hlock, ih hrest hmore⟩

theorem IsFree.denies {table : LockTable} (h : table.IsFree) (key : LockKey) : ¬table.denies .service key := by
  intro hdenied
  obtain ⟨o, ho, hne⟩ := denies_iff.mp hdenied
  obtain ⟨lock, hlock, howner⟩ := Option.bind_eq_some_iff.mp ho
  exact hne (h lock (List.mem_of_find?_eq_some hlock) o howner)

theorem exists_acquire? {table : LockTable} (h : table.IsFree) (key : LockKey) :
    ∃ taken, acquire? .service key table = some taken ∧ taken.IsFree := by
  cases ht : acquire? .service key table with
  | none => exact absurd (acquire?_eq_none_iff_denies.mp ht) (h.denies key)
  | some taken => exact ⟨taken, rfl, h.of_acquire? ht⟩

theorem exists_acquireAll {table : LockTable} (h : table.IsFree) (keys : List LockKey) :
    ∃ taken, acquireAll .service keys table = .ok taken := by
  apply exists_acquireAll_of_find?
  rw [List.find?_eq_none]
  exact fun key _ => h.denies key

theorem exists_enter {table : LockTable} {key : LockKey} {wait : Wait} (h : table.IsFree)
    (hkey : key.isUsable) (hwait : wait.check = .ok ()) (waiter : Waiter) :
    ∃ taken, table.enter .service key waiter wait = (.ok (), taken) ∧ taken.IsFree := by
  obtain ⟨taken, htaken, hfree⟩ := exists_acquire? h key
  refine ⟨taken, ?_, hfree⟩
  rw [enter_eq, orSame_eq_ok, take_eq hkey hwait, htaken]

theorem exists_enterAll {table : LockTable} {keys : List LockKey} {wait left : Wait} (h : table.IsFree)
    (hkeys : LockKey.areOrdered keys) (hleft : wait.left = .ok left) (hcheck : left.check = .ok ()) :
    ∃ taken, table.enterAll .service keys wait = (.ok (), taken) := by
  obtain ⟨taken, htaken⟩ := exists_acquireAll h (LockKey.sorted keys)
  refine ⟨taken, ?_⟩
  rw [enterAll_eq, orSame_eq_ok, takeAll_eq hkeys hleft (fun _ => hcheck), htaken]
  rfl

theorem areOrdered_of_int {keys : List LockKey}
    (h : ∀ key ∈ keys, ∃ lead pipeline, key = .entry (.int lead) (.int pipeline)) : LockKey.areOrdered keys := by
  unfold LockKey.areOrdered
  simp only [Bool.and_eq_true, List.all_eq_true]
  constructor
  . intro key hkey
    obtain ⟨l, p, rfl⟩ := h key hkey
    rfl
  . intro key hkey other hother
    obtain ⟨l, p, rfl⟩ := h key hkey
    obtain ⟨l', p', rfl⟩ := h other hother
    simp [LockKey.id, LockId.isComparable, LockPart.of, Value.magnitude?, LockPart.isComparable]

end LockTable

/-- A wait that can be used up, and of which the rest can be. -/
structure Wait.IsValid (w : Wait) : Prop where
  check : w.check = .ok ()
  left : ∃ left, w.left = .ok left ∧ Wait.check left = .ok ()

structure Call.IsUnhindered (c : Call) (s : Service) : Prop where
  free : s.locks.table.IsFree
  wait : c.wait.IsValid

/-! ## Operations that are transactions -/

namespace Transaction

def result {α : Type} (t : Transaction α) (s : Store) : Except Fault α :=
  (t s).map (·.1)

/-- The store that a transaction leaves, which is the one it started from if it fails. -/
def rest {α : Type} (t : Transaction α) (s : Store) : Store :=
  match t s with
  | .ok (_, s') => s'
  | .error _ => s

theorem store_of_reading {α : Type} {g : Store → Except Fault α} {s s' : Store} {a : α}
    (h : reading g s = .ok (a, s')) : s' = s := by
  rw [reading_eq] at h
  cases hg : g s <;> rw [hg] at h <;> cases h
  rfl

@[simp]
theorem result_reading {α : Type} (g : Store → Except Fault α) (s : Store) : (reading g).result s = g s := by
  rw [result, reading_eq]
  cases g s <;> rfl

@[simp]
theorem rest_reading {α : Type} (g : Store → Except Fault α) (s : Store) : (reading g).rest s = s := by
  rw [rest, reading_eq]
  cases g s <;> rfl

end Transaction

namespace Operation

section

variable {α β : Type} {s : Service}

/-- An operation that answers and leaves in the store what a transaction does. -/
def Does (op : Operation α) (s : Service) (t : Transaction α) : Prop :=
  ∃ s', op s = (t.result s.store, s') ∧ s'.store = t.rest s.store

theorem Does.congr {op : Operation α} {t t' : Transaction α} (h : Does op s t) (heq : t' s.store = t s.store) :
    Does op s t' := by
  unfold Does Transaction.result Transaction.rest at *
  rw [heq]
  exact h

theorem Does.of_ok {op : Operation α} {t : Transaction α} {a : α} {s' : Store} (h : Does op s t)
    (ht : t s.store = .ok (a, s')) : ∃ after, op s = (.ok a, after) ∧ after.store = s' := by
  obtain ⟨after, hresult, hstore⟩ := h
  rw [Transaction.result, ht] at hresult
  rw [Transaction.rest, ht] at hstore
  exact ⟨after, hresult, hstore⟩

theorem Does.of_error {op : Operation α} {t : Transaction α} {e : Fault} (h : Does op s t)
    (ht : t s.store = .error e) : ∃ after, op s = (.error e, after) ∧ after.store = s.store := by
  obtain ⟨after, hresult, hstore⟩ := h
  rw [Transaction.result, ht] at hresult
  rw [Transaction.rest, ht] at hstore
  exact ⟨after, hresult, hstore⟩

theorem Does.of_answer {op : Operation α} {t : Transaction α} {a : α} {after : Service} (h : Does op s t)
    (hop : op s = (.ok a, after)) : t s.store = .ok (a, after.store) := by
  cases ht : t s.store with
  | error e =>
    obtain ⟨_, hfault, -⟩ := h.of_error ht
    rw [hfault] at hop
    cases hop
  | ok r =>
    obtain ⟨after', hresult, hstore⟩ := h.of_ok ht
    rw [hresult, Prod.mk.injEq, Except.ok.injEq] at hop
    rw [← hop.1, ← hop.2, hstore]

theorem Does.ok_iff {op : Operation α} {t : Transaction α} {s' : Store} (h : Does op s t) :
    (op s).1.isOk ∧ (op s).2.store = s' ↔ ∃ a, t s.store = .ok (a, s') := by
  cases ht : t s.store with
  | error e =>
    obtain ⟨after, hop, -⟩ := h.of_error ht
    simp [hop, Except.isOk, Except.toBool]
  | ok r =>
    obtain ⟨after, hop, hstore⟩ := h.of_ok ht
    simp [hop, hstore, Except.isOk, Except.toBool, Prod.ext_iff]

theorem Does.store_of_fault {op : Operation α} {t : Transaction α} (h : Does op s t) (hf : ¬(op s).1.isOk) :
    (op s).2.store = s.store := by
  cases ht : t s.store with
  | error e =>
    obtain ⟨after, hop, hstore⟩ := h.of_error ht
    rw [hop]
    exact hstore
  | ok r =>
    obtain ⟨after, hop, -⟩ := h.of_ok ht
    rw [hop] at hf
    exact absurd rfl hf

theorem does_commit (t : Transaction α) : Does (commit t) s t := by
  rw [Does, commit_eq]
  unfold Transaction.result Transaction.rest
  cases t s.store <;> exact ⟨_, rfl, rfl⟩

theorem does_pure (a : α) : Does (pure a) s (pure a) :=
  ⟨s, rfl, rfl⟩

/-- What is done first only looks at the store, so nothing is to be undone if the rest fails. -/
theorem Does.bind {op : Operation β} {t : Transaction β} {f : β → Operation α} {h : β → Transaction α}
    (ho : Does op s t) (ht : ∀ b s', t s.store = .ok (b, s') → s' = s.store)
    (hf : ∀ b s', op s = (.ok b, s') → s'.store = s.store → Does (f b) s' (h b)) :
    Does (op >>= f) s (t >>= h) := by
  obtain ⟨s', hresult, hstore⟩ := ho
  unfold Does Transaction.result Transaction.rest at *
  rw [Transaction.bind_eq]
  cases hts : t s.store with
  | error e =>
    rw [hts] at hresult hstore
    exact ⟨s', bind_of_error hresult f, hstore⟩
  | ok r =>
    rw [hts] at hresult hstore
    obtain ⟨b, store⟩ := r
    have hsame := ht b store hts
    subst hsame
    obtain ⟨s'', hresult', hstore'⟩ := hf b s' hresult hstore
    rw [hstore] at hresult' hstore'
    exact ⟨s'', (bind_of_ok hresult f).trans hresult', hstore'⟩

/-- What is shown in the end can be shown, so nothing is kept that was not answered. -/
theorem Does.bind_shown {op : Operation β} {t : Transaction β} {f : β → Operation α} {h : β → Transaction α}
    (ho : Does op s t) (ht : t.Leads s.store fun b s' => ∃ r, h b s' = .ok r)
    (hf : ∀ b s', Does (f b) s' (h b)) : Does (op >>= f) s (t >>= h) := by
  obtain ⟨s', hresult, hstore⟩ := ho
  unfold Transaction.Leads at ht
  unfold Does Transaction.result Transaction.rest at *
  rw [Transaction.bind_eq]
  cases hts : t s.store with
  | error e =>
    rw [hts] at hresult hstore
    exact ⟨s', bind_of_error hresult f, hstore⟩
  | ok r =>
    rw [hts] at hresult hstore ht
    obtain ⟨b, store⟩ := r
    obtain ⟨x, hx⟩ := ht
    obtain ⟨s'', hresult', hstore'⟩ := hf b s'
    have hstore : s'.store = store := hstore
    rw [hstore] at hresult' hstore'
    refine ⟨s'', (bind_of_ok hresult f).trans hresult', ?_⟩
    rw [hstore']
    change _ = match h b store with
      | .ok (_, s') => s'
      | .error _ => s.store
    rw [hx]

theorem does_reading (g : Store → Except Fault α) : Does (reading g) s (Transaction.reading g) :=
  ⟨s, by rw [reading_eq, Transaction.result_reading], by rw [Transaction.rest_reading]⟩

theorem does_reading_bind {g : Store → Except Fault β} {f : β → Operation α} {h : β → Transaction α}
    (hf : ∀ b, g s.store = .ok b → Does (f b) s (h b)) :
    Does (reading g >>= f) s (Transaction.reading g >>= h) := by
  apply (does_reading g).bind
  . intro b s' hg
    exact Transaction.store_of_reading hg
  . intro b s' hg _
    rw [reading_eq, Prod.mk.injEq] at hg
    obtain ⟨hg, rfl⟩ := hg
    exact hf b hg

theorem does_of_reading {g : Store → Except Fault β} {b : β} {f : β → Operation α} {t : Transaction α}
    (hg : g s.store = .ok b) (hf : Does (f b) s t) : Does (reading g >>= f) s t := by
  obtain ⟨s', hresult, hstore⟩ := hf
  refine ⟨s', ?_, hstore⟩
  rw [bind_of_ok (by rw [reading_eq, hg])]
  exact hresult

theorem does_holding {enter : LockTable → Except Fault Unit × LockTable} {release : LockTable → LockTable}
    {body : Operation α} {t : Transaction α} {table : LockTable} (ht : enter s.locks.table = (.ok (), table))
    (hb : Does body { s with locks := { s.locks with table } } t) : Does (holding enter release body) s t := by
  obtain ⟨s', hresult, hstore⟩ := hb
  unfold Does holding
  rw [ht]
  dsimp only
  rw [hresult]
  exact ⟨_, rfl, hstore⟩

/-- A lock that nobody else holds is taken, unless the time to wait for it is none. -/
theorem does_holdingKey {key : LockKey} {waiter : Waiter} {wait : Wait} {body : Operation α} {t : Transaction α}
    (hfree : s.locks.table.IsFree) (hkey : key.isUsable)
    (hb : ∀ table, table.IsFree → Does body { s with locks := { s.locks with table } } t) :
    Does (holdingKey key waiter wait body) s (do
      let _ ← Transaction.reading fun _ => wait.check
      t) := by
  cases hcheck : wait.check with
  | ok _ =>
    obtain ⟨table, htable, hfree⟩ := LockTable.exists_enter hfree hkey hcheck waiter
    apply (does_holding htable (hb table hfree)).congr
    rw [Transaction.reading_bind]
    rfl
  | error f =>
    have htake : s.locks.table.take .service key waiter wait = .error f := by
      unfold LockTable.take
      rw [hkey, hcheck]
      rfl
    refine ⟨s, ?_, rfl⟩
    unfold holdingKey holding
    dsimp only
    rw [LockTable.enter_eq, htake]
    rfl

end

end Operation

/-! ## Enrollment -/

namespace Enrollment

open Operation

variable {c : Call} {s : Service}

def enrolling (c : Call) (lead pipeline note : Value) : Transaction EntryView := do
  let l ← Transaction.reading (·.lead lead)
  let p ← Transaction.reading (enrollable pipeline)
  let e ← refusingEntry lead pipeline (openRecorded c lead l.id p.id note false)
  Transaction.reading (·.view c.window c.now e)

theorem does_enroll {lead pipeline : Value} (hs : s.store.IsSound) (hc : c.IsUnhindered s) (hlead : lead.isKey)
    (hpipeline : pipeline.isKey) (note : Value) :
    Does (enroll c lead pipeline note) s (enrolling c lead pipeline note) := by
  unfold enroll enrolling
  apply does_reading_bind
  intro l hl
  apply does_reading_bind
  intro p _
  dsimp only
  have hkey : (LockKey.entry lead pipeline).isUsable := by simp [LockKey.isUsable, hlead, hpipeline]
  obtain ⟨table, htable, -⟩ := LockTable.exists_enter hc.free hkey hc.wait.check (LockKey.entry lead pipeline).waiter
  apply (does_holding htable (does_commit _)).bind_shown
  . apply (leads_refusingEntry (leads_openRecorded hs (Store.knows_of_lead hl))).mono
    rintro e s' ⟨hstep, v, hv⟩
    rw [← Store.view_congr (hstep.stages_eq (by simp))] at hv
    exact ⟨(v, s'), by rw [Transaction.reading_eq, hv]; rfl⟩
  . intro e s'
    exact does_reading _

def enrollingMany (c : Call) (leads pipeline : Value) (skipExisting : Bool) (note : Value) :
    Transaction Bulk := do
  let names ← Transaction.reading fun _ => do distinct [] (← leads.elements)
  let p ← Transaction.reading (enrollable pipeline)
  if names.isEmpty then return ⟨[], []⟩
  let leads ← Transaction.reading (candidates names)
  let (entries, skips) ← openEach c pipeline p.id skipExisting note leads
  let views ← Transaction.reading fun s => entries.mapM (s.view c.window c.now)
  return ⟨views, skips⟩

theorem does_enrollMany {leads pipeline : Value} (hs : s.store.IsSound) (hc : c.IsUnhindered s)
    (hkeys : ∀ names, (do distinct [] (← leads.elements)) = .ok names →
      LockKey.areOrdered (names.map fun name => LockKey.entry name pipeline)) (skipExisting : Bool)
    (note : Value) :
    Does (enrollMany c leads pipeline skipExisting note) s (enrollingMany c leads pipeline skipExisting note) := by
  unfold enrollMany enrollingMany
  apply does_reading_bind
  intro names hnames
  apply does_reading_bind
  intro p _
  split
  . exact does_pure _
  apply does_reading_bind
  intro leads hleads
  dsimp only
  obtain ⟨left, hleft, hcheck⟩ := hc.wait.left
  obtain ⟨table, htable⟩ := LockTable.exists_enterAll hc.free (hkeys names hnames) hleft hcheck
  apply (does_holding htable (does_commit _)).bind_shown
  . apply (leads_openEach hs (knows_of_candidates hleads)).mono
    rintro ⟨entries, skips⟩ s' ⟨hsteps, hviews⟩
    obtain ⟨views, hviews, -⟩ := exists_views hviews
    have hsame : s'.view c.window c.now = s.store.view c.window c.now :=
      funext fun e => Store.view_congr (hsteps.stages_eq (by simp)) c.window c.now e
    rw [← hsame] at hviews
    refine ⟨(⟨views, skips⟩, s'), ?_⟩
    dsimp only
    rw [Transaction.bind_eq, Transaction.reading_eq, hviews]
    rfl
  . rintro ⟨entries, skips⟩ s'
    apply does_reading_bind
    intro views _
    exact does_pure _

end Enrollment

/-! ## Closing -/

namespace Closing

open Operation

variable {c : Call} {s : Service}

def archiving (c : Call) (entry reason : Value) : Transaction EntryView := do
  let e ← Transaction.reading (·.entry entry)
  let closed ← archiveRecorded c e reason
  Transaction.reading (·.view c.window c.now closed)

/-- What an archiving does as a transaction, while nobody holds its lock. -/
def closing (c : Call) (entry reason : Value) : Transaction EntryView := do
  let e ← Transaction.reading (·.entry entry)
  let _ ← Transaction.reading fun _ => c.wait.check
  let closed ← archiveRecorded c e reason
  Transaction.reading (·.view c.window c.now closed)

theorem does_closing (hfree : s.locks.table.IsFree) (entry reason : Value) :
    Does (archive c entry reason) s (closing c entry reason) := by
  unfold archive closing
  apply does_reading_bind
  intro e he
  rw [← bind_assoc]
  apply (does_holdingKey hfree rfl fun _ _ => does_commit _).bind_shown
  . apply Transaction.leads_reading_bind (by simp)
    intro _ _
    apply (leads_archiveRecorded (Store.mem_of_entry he)).mono
    rintro closed s' ⟨_, hclosed⟩
    obtain ⟨v, hv⟩ := Store.exists_view_of_closed hclosed
    exact ⟨(v, s'), by rw [Transaction.reading_eq, hv]; rfl⟩
  . intro closed s'
    exact does_reading _

theorem does_archive (hc : c.IsUnhindered s) (entry reason : Value) :
    Does (archive c entry reason) s (archiving c entry reason) := by
  apply (does_closing hc.free entry reason).congr
  simp only [closing, archiving, Transaction.reading_bind, hc.wait.check]
  rfl

def transferring (c : Call) (entry pipeline reason note : Value) : Transaction Transfer := do
  let e ← Transaction.reading (·.entry entry)
  let p ← Transaction.reading (Enrollment.enrollable pipeline)
  let (closed, opened) ←
    Enrollment.refusingEntry (.int e.lead) pipeline (transferRecorded c e pipeline p.id reason note)
  Transaction.reading fun s => do
    return ⟨← s.view c.window c.now closed, ← s.view c.window c.now opened⟩

theorem does_transfer (hs : s.store.IsSound) (hc : c.IsUnhindered s) (entry : Value) (pipeline : Int)
    (reason note : Value) :
    Does (transfer c entry (.int pipeline) reason note) s (transferring c entry (.int pipeline) reason note) := by
  unfold transfer transferring
  apply does_reading_bind
  intro e he
  apply does_reading_bind
  intro p hp
  dsimp only
  obtain ⟨left, hleft, hcheck⟩ := hc.wait.left
  have hkeys : LockKey.areOrdered [.entry (.int e.lead) (.int e.pipeline), .entry (.int e.lead) (.int pipeline)] :=
    LockTable.areOrdered_of_int (by simp)
  obtain ⟨table, htable⟩ := LockTable.exists_enterAll hc.free hkeys hleft hcheck
  apply (does_holding htable (does_commit _)).bind_shown
  . apply (Enrollment.leads_refusingEntry (leads_transferRecorded hs (Store.mem_of_entry he)
      (Store.rowId?_of_pipeline rfl (Enrollment.pipeline_of_enrollable hp)))).mono
    rintro ⟨closed, opened⟩ s' ⟨hstep, hclosed, v, hv⟩
    rw [← Store.view_congr (hstep.stages_eq (by simp))] at hv
    obtain ⟨v', hv'⟩ := Store.exists_view_of_closed hclosed
    refine ⟨(⟨v', v⟩, s'), ?_⟩
    dsimp only
    rw [Transaction.reading_eq, hv, hv']
    rfl
  . rintro ⟨closed, opened⟩ s'
    exact does_reading _

end Closing

/-! ## Advancement -/

namespace Advancement

open Operation

variable {c : ZonedCall} {s : Service}

/-- The judgement of the criteria that an entry has to meet, as it is without a cache. -/
def judge (c : ZonedCall) (e : Entry) (k : Knowledge) (s : Store) : Except Fault (Verdict × Health) := do
  let checks ← CheckSource.compileAll (s.sourcesOf e.stage)
  let now ← c.now.instant
  let sla ← s.healthOf c.window now e
  let context ← contextOf (sla.metrics e.enrolledAt now) k.context
  let snapshot ← snapshotOf e k.snapshot s
  let flags ← s.flagsOn e.lead checks
  return (← Verdict.of ⟨snapshot, .object context⟩ flags checks, sla)

theorem judge_universal (c : Call) (e : Entry) (k : Knowledge) (s : Store) : judge c e k s = (do
    let checks ← CheckSource.compileAll (s.sourcesOf e.stage)
    let sla ← s.healthOf c.window c.now e
    let context ← contextOf (sla.metrics e.enrolledAt c.now) k.context
    let snapshot ← snapshotOf e k.snapshot s
    let flags ← s.flagsOn e.lead checks
    return (← Verdict.of ⟨snapshot, .object context⟩ flags checks, sla)) :=
  rfl

def advancingHeld (c : ZonedCall) (e : Entry) (target : Value) (k : Knowledge) (note : Value) :
    Transaction Move := do
  Transaction.demand e.isActive (.refused (.notActive (.int e.id) (.text e.status.name)))
  let stage ← Transaction.reading (resolveTarget e target)
  let current ← Transaction.reading fun s => Store.follow (s.stage? e.stage)
  let (verdict, sla) ← Transaction.reading (judge c e k)
  if verdict.canAdvance then
    move c e current stage verdict sla note
  else do
    let view ← Transaction.reading (·.view c.window c.now e)
    return ⟨.criteriaNotMet, view, .null, verdict, sla, current.id, stage.id⟩

def advancing (c : ZonedCall) (entry target : Value) (k : Knowledge) (note : Value) : Transaction Move := do
  let e ← Transaction.reading (·.entry entry)
  advancingHeld c e target k note

theorem does_requireActive (e : Entry) : Does (requireActive e) s
    (Transaction.demand e.isActive (.refused (.notActive (.int e.id) (.text e.status.name)))) := by
  unfold requireActive
  cases e.isActive <;> exact ⟨s, rfl, rfl⟩

theorem does_evaluateExit (hs : s.IsTrusty) (e : Entry) (k : Knowledge) :
    Does (evaluateExit c e k) s (Transaction.reading (judge c e k)) := by
  obtain ⟨hresult, -⟩ := loadChecks_of_isTrusty hs e.stage
  have hstore := loadChecks_store e.stage s
  unfold evaluateExit Does
  rw [Transaction.result_reading, Transaction.rest_reading, judge, ← hresult]
  rcases hload : loadChecks e.stage s with ⟨r, s'⟩
  rw [hload] at hstore
  refine ⟨s', ?_, hstore⟩
  cases r with
  | error f => rw [bind_of_error hload]; rfl
  | ok checks => rw [bind_of_ok hload, reading_eq, hstore]; rfl

theorem does_advanceHeld (hs : s.IsTrusty) (e : Entry) (target : Value) (k : Knowledge) (note : Value) :
    Does (advanceHeld c e target k note) s (advancingHeld c e target k note) := by
  unfold advanceHeld advancingHeld
  apply (does_requireActive e).bind
  . intro _ s' h
    unfold Transaction.demand at h
    split at h <;> cases h
    rfl
  intro _ s' hs' hstore
  have htrusty : s'.IsTrusty := by
    have h : (requireActive e s).2.IsTrusty := turns_requireActive.after s hs
    rwa [hs'] at h
  apply does_reading_bind
  intro stage _
  apply does_reading_bind
  intro current _
  apply (does_evaluateExit htrusty e k).bind
  . intro r s'' h
    exact Transaction.store_of_reading h
  rintro ⟨verdict, sla⟩ s'' _ _
  dsimp only
  split
  . exact does_commit _
  . apply does_reading_bind
    intro view _
    exact does_pure _

/-- What a move does as a transaction, while nobody holds its locks. -/
def moving (c : ZonedCall) (entry target : Value) (k : Knowledge) (note : Value) : Transaction Move := do
  let e ← Transaction.reading (·.entry entry)
  let left ← Transaction.reading fun _ => c.wait.left
  let _ ← Transaction.reading fun _ => c.wait.check
  match ← Transaction.reading (cappedStage? target) with
  | none => advancingHeld c e target k note
  | some _ =>
    let _ ← Transaction.reading fun _ => left.check
    advancingHeld c e target k note

theorem does_moving (hs : s.IsTrusty) (hfree : s.locks.table.IsFree) (entry target : Value) (k : Knowledge)
    (note : Value) :
    Does (advance c entry target k note) s (moving c entry target k note) := by
  unfold advance moving
  apply does_reading_bind
  intro e _
  apply does_reading_bind
  intro left _
  apply does_holdingKey hfree rfl
  intro table hfree
  apply does_reading_bind
  intro stage? _
  cases stage? with
  | none => exact does_advanceHeld (hs.locked _) e target k note
  | some stage =>
    apply does_holdingKey hfree rfl
    intro table' _
    exact does_advanceHeld (hs.locked _) e target k note

theorem does_advance {c : Call} {target : Value} {t? : Option Stage} (hs : s.IsTrusty) (hc : c.IsUnhindered s)
    (ht : Store.seek s.store.stage? target = .ok t?) (entry : Value) (k : Knowledge) (note : Value) :
    Does (advance c entry target k note) s (advancing c entry target k note) := by
  apply (does_moving hs hc.free entry target k note).congr
  obtain ⟨left, hleft, hcheck⟩ := hc.wait.left
  have hcapped : cappedStage? target s.store = .ok (t?.filter (·.capacity?.isSome)) := by
    unfold cappedStage?
    rw [ht]
    rfl
  simp only [moving, advancing, Transaction.reading_bind, hleft, hc.wait.check, hcapped]
  apply bind_congr
  intro e
  cases t?.filter (·.capacity?.isSome) with
  | none => rfl
  | some stage =>
    change _ = (Transaction.reading (fun _ => left.check) >>= fun _ => advancingHeld c e target k note) s.store
    rw [Transaction.reading_bind, hcheck]
    rfl

end Advancement

/-! ## Locks that are released -/

namespace Operation

section

variable {α β : Type} {locks : Registry}

/-- An operation that in the end holds the locks that it found, and no others. -/
abbrev Returns (op : Operation α) : Prop :=
  ∀ locks, Turns op (·.locks = locks) (·.locks = locks)

theorem returns_commit (t : Transaction α) : Returns (commit t) := by
  intro locks
  constructor
  intro s h
  rw [commit_eq]
  cases t s.store <;> exact h

theorem returns_loadChecks (stage : Int) : Returns (loadChecks stage) := by
  intro locks
  constructor
  intro s h
  rw [loadChecks_eq]
  split <;> exact h

theorem returns_holding {enter : LockTable → Except Fault Unit × LockTable} {release : LockTable → LockTable}
    {body : Operation α} {take : LockTable → Except Fault LockTable}
    (henter : ∀ table, enter table = table.orSame (take table))
    (hrelease : ∀ table taken, take table = .ok taken → release taken = table) (hb : Returns body) :
    Returns (holding enter release body) := by
  intro locks
  constructor
  rintro s rfl
  unfold holding
  rw [henter]
  cases htake : take s.locks.table with
  | error e => rfl
  | ok table =>
    have h := (hb ⟨table, s.locks.holds⟩).after ⟨s.store, s.cache, ⟨table, s.locks.holds⟩⟩ rfl
    dsimp only [LockTable.orSame]
    rcases hbody : body ⟨s.store, s.cache, ⟨table, s.locks.holds⟩⟩ with ⟨r, s'⟩
    rw [hbody] at h
    dsimp only at h ⊢
    rw [h, hrelease _ _ htake]

theorem returns_holdingKey {key : LockKey} {waiter : Waiter} {wait : Wait} {body : Operation α}
    (hb : Returns body) : Returns (holdingKey key waiter wait body) :=
  returns_holding (fun _ => LockTable.enter_eq) (fun _ _ => LockTable.release_of_take) hb

theorem returns_holdingKeys {keys : List LockKey} {wait : Wait} {body : Operation α} (hb : Returns body) :
    Returns (holdingKeys keys wait body) :=
  returns_holding (fun _ => LockTable.enterAll_eq) (fun _ _ => LockTable.releaseAll_of_takeAll) hb

end

end Operation

open Operation

theorem Enrollment.returns_enroll (c : Call) (lead pipeline note : Value) :
    Returns (enroll c lead pipeline note) :=
  fun locks => Command.turns_enroll fun _ _ => returns_holdingKey (returns_commit _) locks

theorem Enrollment.returns_enrollMany (c : Call) (leads pipeline : Value) (skipExisting : Bool) (note : Value) :
    Returns (enrollMany c leads pipeline skipExisting note) :=
  fun locks => Command.turns_enrollMany fun _ _ _ => returns_holdingKeys (returns_commit _) locks

theorem Closing.returns_archive (c : Call) (entry reason : Value) : Returns (archive c entry reason) :=
  fun locks => Command.turns_archive fun _ _ _ => returns_holdingKey (returns_commit _) locks

theorem Closing.returns_transfer (c : Call) (entry pipeline reason note : Value) :
    Returns (transfer c entry pipeline reason note) :=
  fun locks => Command.turns_transfer fun _ _ _ _ => returns_holdingKeys (returns_commit _) locks

namespace Advancement

variable {c : Call}

theorem returns_advanceHeld {e : Entry} {target note : Value} {k : Knowledge} :
    Returns (advanceHeld c e target k note) :=
  fun locks => turns_advanceHeld (fun _ h => h) (fun stage => returns_loadChecks stage locks)
    fun _ _ _ _ => returns_commit _ locks

theorem returns_advance (c : Call) (entry target : Value) (k : Knowledge) (note : Value) :
    Returns (advance c entry target k note) := by
  intro locks
  unfold advance
  apply turns_reading_bind fun _ h => h
  intro e
  apply turns_reading_bind fun _ h => h
  intro left
  apply returns_holdingKey
  intro locks'
  apply turns_reading_bind fun _ h => h
  intro capped
  cases capped with
  | none => exact returns_advanceHeld locks'
  | some stage => exact returns_holdingKey returns_advanceHeld locks'

end Advancement

/-- A command that is not about locks holds in the end those that it found, whether it answers or fails. -/
theorem Command.returns_run {k : Command} (hk : k.lockStep? = none) (env : Environment) : Returns (k.run env) := by
  intro locks
  cases k with
  | enroll => exact turns_map (Enrollment.returns_enroll _ _ _ _ locks)
  | enrollMany => exact turns_map (Enrollment.returns_enrollMany _ _ _ _ _ locks)
  | advance => exact turns_map (Advancement.returns_advance _ _ _ _ _ locks)
  | archive => exact turns_map (Closing.returns_archive _ _ _ locks)
  | transfer => exact turns_map (Closing.returns_transfer _ _ _ _ _ locks)
  | hold | holdMany | release => cases hk
  | _ =>
    exact turns_of_quiet (fun _ h => h) (fun _ t => returns_commit t locks)
      (fun stage => returns_loadChecks stage locks) (fun _ => ⟨fun _ h => h⟩) rfl rfl env

end StageGate
