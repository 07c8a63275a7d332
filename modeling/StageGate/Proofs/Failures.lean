import StageGate.Proofs.Operations
import StageGate.Proofs.Writes

/-!
This module contains that operations which fail leave the tables as they were, from whatever store they start and
whatever locks are held. An operation changes the store by one transaction, and nothing that comes after it
fails, as what was written can be shown. The summary of a pipeline's health alone goes on to something that
may fail.
-/

namespace StageGate

open Operation

/--
The stages and the entries stand in the order of their ids, which is known of every store whose rows are told
apart by their ids. Nothing else is asked of it: its columns may hold anything.
-/
structure Store.IsKeyed (s : Store) : Prop where
  stages : (s.stages.map (·.id)).Pairwise (· < ·)
  entries : (s.entries.map (·.id)).Pairwise (· < ·)

/-! ## Operations that fail -/

namespace Operation

section

variable {α β : Type} {s : Service} {base : Store} {post : α → Service → Prop}

/--
An operation that leads to an answer and a service as `post` says, or ends in a fault, whichever it is, and
leaves the store `base` behind.
-/
def Spares (op : Operation α) (s : Service) (base : Store) (post : α → Service → Prop) : Prop :=
  match op s with
  | (.ok a, s') => post a s'
  | (.error _, s') => s'.store = base

theorem Leads.spares {op : Operation α} (h : op.Leads s base post) : op.Spares s base post := by
  unfold Leads at h
  unfold Spares
  split
  . next hop =>
    rw [hop] at h
    exact h
  . next hop =>
    rw [hop] at h
    exact h.1

theorem Spares.mono {op : Operation α} {post' : α → Service → Prop} (h : op.Spares s base post)
    (himp : ∀ a s', post a s' → post' a s') : op.Spares s base post' := by
  unfold Spares at *
  split
  . next hop =>
    rw [hop] at h
    exact himp _ _ h
  . next hop =>
    rw [hop] at h
    exact h

theorem Spares.store_of_error {op : Operation α} {e : Fault} (h : op.Spares s base post) (he : (op s).1 = .error e) :
    (op s).2.store = base := by
  unfold Spares at h
  split at h
  . next hop =>
    rw [hop] at he
    cases he
  . next hop => rwa [hop]

theorem Spares.of_ok {op : Operation α} {a : α} (h : op.Spares s base post) (ha : (op s).1 = .ok a) :
    post a (op s).2 := by
  unfold Spares at h
  split at h
  . next hop =>
    rw [hop] at ha ⊢
    cases ha
    exact h
  . next hop =>
    rw [hop] at ha
    cases ha

@[simp]
theorem spares_pure (a : α) : Spares (pure a) s base post ↔ post a s :=
  Iff.rfl

@[simp]
theorem spares_throw {e : Fault} : Spares (throw e) s base post ↔ s.store = base :=
  Iff.rfl

@[simp]
theorem spares_bind {op : Operation β} {f : β → Operation α} :
    Spares (op >>= f) s base post ↔ Spares op s base fun b s' => Spares (f b) s' base post := by
  unfold Spares
  rcases hop : op s with ⟨r, s'⟩
  cases r with
  | ok b => rw [bind_of_ok hop]
  | error e => rw [bind_of_error hop]

@[simp]
theorem spares_map {op : Operation β} {f : β → α} :
    Spares (f <$> op) s base post ↔ Spares op s base fun b s' => post (f b) s' := by
  rw [← bind_pure_comp, spares_bind]
  rfl

@[simp]
theorem spares_get {post : Service → Service → Prop} : Spares get s base post ↔ post s s :=
  Iff.rfl

@[simp]
theorem spares_modify {f : Service → Service} {post : PUnit → Service → Prop} :
    Spares (modify f) s base post ↔ post ⟨⟩ (f s) :=
  Iff.rfl

theorem Spares.bind {op : Operation β} {f : β → Operation α} {mid : β → Service → Prop} (h : Spares op s base mid)
    (hf : ∀ b s', mid b s' → Spares (f b) s' base post) : Spares (op >>= f) s base post := by
  rw [spares_bind]
  exact h.mono hf

theorem spares_reading {g : Store → Except Fault α} (hs : s.store = base) (h : ∀ a, g s.store = .ok a → post a s) :
    Spares (reading g) s base post := by
  unfold Spares
  rw [reading_eq]
  cases hg : g s.store with
  | ok a => exact h a hg
  | error e => exact hs

theorem spares_reading_bind {g : Store → Except Fault β} {f : β → Operation α} (hs : s.store = base)
    (hf : ∀ b, g s.store = .ok b → Spares (f b) s base post) : Spares (reading g >>= f) s base post := by
  rw [spares_bind]
  exact spares_reading hs hf

theorem spares_reading_ok {g : Store → Except Fault α} {a : α} (h : g s.store = .ok a) :
    Spares (reading g) s base post ↔ post a s := by
  unfold Spares
  rw [reading_eq, h]

theorem spares_commit {t : Transaction α} (hs : s.store = base)
    (h : ∀ a store, t s.store = .ok (a, store) → post a { s with store }) : Spares (commit t) s base post := by
  unfold Spares
  rw [commit_eq]
  cases ht : t s.store with
  | ok r => exact h r.1 r.2 ht
  | error e => exact hs

theorem spares_commit_self {t : Transaction α} : Spares (commit t) s s.store fun _ _ => True :=
  spares_commit rfl fun _ _ _ => trivial

theorem spares_settle_self {d : Draft α} : Spares (settle d) s s.store fun _ _ => True := by
  rw [settle_eq]
  exact spares_commit_self

/-- Locks are no part of the store, so what is left of it is up to the body. -/
theorem spares_holding {enter : LockTable → Except Fault Unit × LockTable} {release : LockTable → LockTable}
    {body : Operation α} (post : α → Store → Prop) (hs : s.store = base)
    (hb : ∀ locks, Spares body { s with locks } base fun a s' => post a s'.store) :
    Spares (holding enter release body) s base fun a s' => post a s'.store := by
  unfold Spares holding
  rcases enter s.locks.table with ⟨entered, table⟩
  cases entered with
  | error e => exact hs
  | ok _ =>
    have hb := hb { s.locks with table }
    unfold Spares at hb
    dsimp only
    rcases hbody : body { s with locks := { s.locks with table } } with ⟨r, s'⟩
    rw [hbody] at hb
    cases r <;> exact hb

theorem spares_holding_commit {enter : LockTable → Except Fault Unit × LockTable} {release : LockTable → LockTable}
    {t : Transaction α} {post : α → Store → Prop} (hs : s.store = base)
    (h : ∀ a store, t base = .ok (a, store) → post a store) :
    Spares (holding enter release (commit t)) s base fun a s' => post a s'.store := by
  subst hs
  apply spares_holding post rfl
  intro locks
  exact spares_commit rfl h

end

end Operation

/-! ## Entries -/

namespace Enrollment

variable {c : Call} {s : Service}

theorem spares_enroll {lead pipeline note : Value} (hs : s.store.IsKeyed) :
    (enroll c lead pipeline note).Spares s s.store fun _ _ => True := by
  unfold enroll
  apply spares_reading_bind rfl
  intro l _
  apply spares_reading_bind rfl
  intro p _
  apply Spares.bind (spares_holding_commit rfl fun e store hopen =>
    (exists_view_of_openRecorded hs.stages (Transaction.refusingViolations_eq_ok.mp hopen)).2)
  rintro e s' ⟨v, hv⟩
  rw [spares_reading_ok hv]
  trivial

theorem exists_views_of_openEach {s s' : Store} {name : Value} {pipeline : Int} {skipExisting : Bool} {note : Value}
    {leads : List Candidate} {entries : List Entry} {skips : List Skip}
    (hs : (s.stages.map (·.id)).Pairwise (· < ·))
    (h : openEach c name pipeline skipExisting note leads s = .ok ((entries, skips), s')) :
    s'.stages = s.stages ∧ ∀ e ∈ entries, ∃ v, s'.view c.window c.now e = .ok v := by
  -- By induction on the leads; what can be shown behind one of them still can be behind the later ones.
  induction leads generalizing s entries skips with
  | nil =>
    cases h
    exact ⟨rfl, by simp⟩
  | cons l leads ih =>
    unfold openEach at h
    rw [Transaction.bind_of_ok (Transaction.get_eq_ok.mpr ⟨rfl, rfl⟩)] at h
    generalize s.activeEntryIn? l.lead pipeline = active? at h
    split at h
    . simp only [Transaction.bind_eq_ok, Transaction.pure_eq_ok, Prod.mk.injEq] at h
      obtain ⟨⟨rest, _⟩, _, hrest, ⟨rfl, -⟩, rfl⟩ := h
      exact ih hs hrest
    . simp only [Transaction.bind_eq_ok, Transaction.pure_eq_ok, Prod.mk.injEq] at h
      obtain ⟨e, s₁, hopen, ⟨rest, _⟩, _, hrest, ⟨rfl, -⟩, rfl⟩ := h
      obtain ⟨hstages, v, hv⟩ := exists_view_of_openRecorded hs (Transaction.refusingViolations_eq_ok.mp hopen)
      rw [← hstages] at hs
      obtain ⟨hrestStages, hviews⟩ := ih hs hrest
      refine ⟨hrestStages.trans hstages, ?_⟩
      rw [List.forall_mem_cons]
      refine ⟨⟨v, ?_⟩, hviews⟩
      rw [Store.view_congr hrestStages]
      exact hv

theorem spares_enrollMany {leads pipeline : Value} {skipExisting : Bool} {note : Value} (hs : s.store.IsKeyed) :
    (enrollMany c leads pipeline skipExisting note).Spares s s.store fun _ _ => True := by
  unfold enrollMany
  apply spares_reading_bind rfl
  intro names _
  apply spares_reading_bind rfl
  intro p _
  split
  . trivial
  apply spares_reading_bind rfl
  intro leads _
  apply Spares.bind (spares_holding_commit rfl fun r store hopen => (exists_views_of_openEach hs.stages hopen).2)
  rintro ⟨entries, skips⟩ s' hviews
  obtain ⟨views, hviews, -⟩ := exists_views hviews
  dsimp only
  rw [spares_bind, spares_reading_ok hviews]
  trivial

end Enrollment

namespace Closing

variable {c : Call} {s : Service}

theorem spares_transfer {entry pipeline reason note : Value} (hs : s.store.IsKeyed) :
    (transfer c entry pipeline reason note).Spares s s.store fun _ _ => True := by
  unfold transfer
  apply spares_reading_bind rfl
  intro e _
  apply spares_reading_bind rfl
  intro p _
  apply Spares.bind (spares_holding_commit rfl fun r store htransfer =>
    exists_shown_of_transferRecorded hs.stages (Transaction.refusingViolations_eq_ok.mp htransfer))
  rintro ⟨closed, opened⟩ s' ⟨t, ht⟩
  rw [spares_reading_ok ht]
  trivial

end Closing

namespace Advancement

variable {c : Call} {s : Service}

theorem ok_of_move {e : Entry} {current target : Stage} {verdict : Verdict} {sla : Health} {note : Value} {m : Move}
    {store store' : Store} (h : move c e current target verdict sla note store = .ok (m, store')) : m.ok := by
  rw [move_universal] at h
  simp only [Transaction.bind_eq_ok, Transaction.pure_eq_ok] at h
  obtain ⟨new, _, -, isForward, _, -, _, _, -, _, _, -, _, _, -, rfl, -⟩ := h
  unfold Move.ok
  dsimp only
  split
  . rfl
  . split <;> rfl

theorem spares_advanceHeld {base : Store} {e : Entry} {target : Value} {k : Knowledge} {note : Value}
    (hs : s.store = base) : (advanceHeld c e target k note).Spares s base fun m s' => ¬m.ok → s'.store = base := by
  subst hs
  unfold advanceHeld
  apply Spares.bind (leads_requireActive rfl).spares
  rintro _ s' ⟨rfl, -⟩
  apply spares_reading_bind rfl
  intro stage _
  apply spares_reading_bind rfl
  intro current _
  apply Spares.bind leads_evaluateExit.spares
  rintro ⟨verdict, sla⟩ s' hs'
  dsimp only
  split
  . apply spares_commit hs'
    intro m store hmove hblocked
    exact absurd (ok_of_move hmove) hblocked
  . apply spares_reading_bind hs'
    intro view _
    rw [spares_pure]
    exact fun _ => hs'

theorem spares_advance {entry target : Value} {k : Knowledge} {note : Value} :
    (advance c entry target k note).Spares s s.store fun m s' => ¬m.ok → s'.store = s.store := by
  unfold advance
  apply spares_reading_bind rfl
  intro e _
  apply spares_reading_bind rfl
  intro left _
  apply spares_holding (fun (m : Move) store => ¬m.ok → store = s.store) rfl
  intro locks
  apply spares_reading_bind rfl
  intro capped _
  cases capped with
  | none => exact spares_advanceHeld rfl
  | some stage =>
    apply spares_holding (fun (m : Move) store => ¬m.ok → store = s.store) rfl
    intro locks
    exact spares_advanceHeld rfl

end Advancement

/-! ## Health -/

namespace HealthSummary

variable {s : Store} {pipeline : Int}

/-- An entry as it is, or an active one of a pipeline that remembers another health. -/
def Remembers (pipeline : Int) (e x : Entry) : Prop :=
  x = e ∨ e.pipeline = pipeline ∧ e.isActive ∧ ∃ b, x = e.remember b

theorem Remembers.id_eq {e x : Entry} (h : Remembers pipeline e x) : x.id = e.id := by
  obtain rfl | ⟨-, -, b, rfl⟩ := h
  . rfl
  . rfl

/-- A store in which only the active entries of a pipeline may remember another health. -/
def IsRefreshed (pipeline : Int) (s s' : Store) : Prop :=
  ∃ f : Entry → Entry, s' = { s with entries := s.entries.map f } ∧ ∀ e ∈ s.entries, Remembers pipeline e (f e)

theorem isRefreshed_self : IsRefreshed pipeline s s :=
  ⟨id, by simp, fun e _ => .inl rfl⟩

theorem IsRefreshed.putEntry {s' : Store} (h : IsRefreshed pipeline s s')
    (hids : (s.entries.map (·.id)).Pairwise (· < ·)) {e : Entry} (he : e ∈ s.entries) (hp : e.pipeline = pipeline)
    (hactive : e.isActive) (b : Bucket) : IsRefreshed pipeline s (s'.putEntry (e.remember b)) := by
  obtain ⟨f, rfl, hf⟩ := h
  refine ⟨fun x => if (f x).id = e.id then e.remember b else f x, ?_, ?_⟩
  . simp only [Store.putEntry, List.map_map]
    rfl
  . intro x hx
    dsimp only
    split
    . next hid =>
      rw [(hf x hx).id_eq] at hid
      rw [Store.eq_of_id_eq hids hx he hid]
      exact .inr ⟨hp, hactive, b, rfl⟩
    . exact hf x hx

theorem IsRefreshed.remembering {s' : Store} {rs : List Reading} (h : IsRefreshed pipeline s s')
    (hids : (s.entries.map (·.id)).Pairwise (· < ·))
    (hrs : ∀ r ∈ rs, r.entry ∈ s.entries ∧ r.entry.pipeline = pipeline ∧ r.entry.isActive) :
    IsRefreshed pipeline s (s'.remembering rs) := by
  refine Store.preserved_remembering ?_ h
  intro r hr s'' hs''
  obtain ⟨hmem, hp, hactive⟩ := hrs r hr
  exact hs''.putEntry hids hmem hp hactive r.health.bucket

theorem of_refresh {window name : Value} {now : Instant} {readings : List Reading} {s' : Store} (hs : s.IsKeyed)
    (h : refresh window name now s = .ok ((pipeline, readings), s')) :
    ∃ p, s.pipeline name = .ok p ∧ p.id = pipeline ∧ IsRefreshed pipeline s s' := by
  simp only [refresh, Transaction.bind_eq_ok, Transaction.reading_eq_ok, Transaction.modify_eq_ok,
    Transaction.pure_eq_ok, Prod.mk.injEq] at h
  obtain ⟨p, _, ⟨hp, rfl⟩, rows, _, ⟨hrows, rfl⟩, _, _, rfl, ⟨rfl, -⟩, rfl⟩ := h
  exact ⟨p, hp, rfl, isRefreshed_self.remembering hs.entries fun r hr => mem_of_readActive hrows hr⟩

theorem IsRefreshed.sort_of_stagesInOrder {s' : Store} {e : Fault} (h : IsRefreshed pipeline s s')
    (hstages : stagesInOrder pipeline s' = .error e) :
    Value.sort ((s.stagesOf pipeline).map (·.order)) = .error e := by
  obtain ⟨f, rfl, -⟩ := h
  unfold stagesInOrder at hstages
  change (do
    let _ ← Value.sort ((s.stagesOf pipeline).map (·.order))
    return s.stagesOf pipeline : Except Fault (List Stage)) = .error e at hstages
  cases hsort : Value.sort ((s.stagesOf pipeline).map (·.order)) with
  | ok orders =>
    rw [hsort] at hstages
    cases hstages
  | error f =>
    rw [hsort] at hstages
    cases hstages
    rfl

/--
What is left when the orders of the stages of a pipeline cannot be compared, which is found only when the entries
have been refreshed.
-/
structure Halts (p : Pipeline) (e : Fault) (s s' : Store) : Prop where
  unordered : Value.sort ((s.stagesOf p.id).map (·.order)) = .error e
  refreshed : IsRefreshed p.id s s'

end HealthSummary

namespace Administration

variable {s : Service}

theorem store_of_healthSummary {window pipeline : Value} {now : Instant} {e : Fault} (hs : s.store.IsKeyed)
    {s' : Service} (h : healthSummary window pipeline now s = (.error e, s')) :
    s'.store = s.store ∨ ∃ p, s.store.pipeline pipeline = .ok p ∧ HealthSummary.Halts p e s.store s'.store := by
  have hcommit := commit_eq (HealthSummary.refresh window pipeline now) s
  rw [healthSummary_eq] at h
  cases hrefresh : HealthSummary.refresh window pipeline now s.store with
  | error f =>
    rw [hrefresh] at hcommit
    rw [bind_of_error hcommit] at h
    cases h
    exact .inl rfl
  | ok r =>
    obtain ⟨⟨id, readings⟩, store⟩ := r
    rw [hrefresh] at hcommit
    rw [bind_of_ok hcommit] at h
    obtain ⟨p, hp, rfl, hrefreshed⟩ := HealthSummary.of_refresh hs hrefresh
    have hread : reading (HealthSummary.stagesInOrder p.id) { s with store } =
        (HealthSummary.stagesInOrder p.id store, { s with store }) := reading_eq _ _
    dsimp only at h
    cases hstages : HealthSummary.stagesInOrder p.id store with
    | ok stages =>
      rw [hstages] at hread
      rw [bind_of_ok hread] at h
      cases h
    | error f =>
      rw [hstages] at hread
      rw [bind_of_error hread] at h
      cases h
      exact .inr ⟨p, hp, hrefreshed.sort_of_stagesInOrder hstages, hrefreshed⟩

end Administration

/-! ## Commands -/

namespace Administration

variable {s : Service} {a : Configuration.Author}

theorem spares_addStage {pipeline data : Value} :
    (addStage a pipeline data).Spares s s.store fun _ _ => True := by
  unfold addStage
  apply spares_reading_bind rfl
  intro p _
  exact spares_settle_self

theorem spares_addCriterion {stage data : Value} :
    (addCriterion a stage data).Spares s s.store fun _ _ => True := by
  unfold addCriterion forget
  apply spares_reading_bind rfl
  intro target _
  apply spares_settle_self.bind
  intro c s' _
  simp

theorem spares_updateCriterion {criterion data : Value} {shared : Bool} :
    (updateCriterion a criterion data shared).Spares s s.store fun _ _ => True := by
  unfold updateCriterion forget
  apply spares_reading_bind rfl
  intro c _
  apply spares_settle_self.bind
  intro updated s' _
  simp

theorem spares_checksOf {stage : Value} : (checksOf stage).Spares s s.store fun _ _ => True := by
  unfold checksOf
  apply spares_reading_bind rfl
  intro target _
  exact Advancement.leads_loadChecks.spares.mono fun _ _ _ => trivial

theorem spares_writeAudit {now : Instant} {row : Fields} :
    (writeAudit now row).Spares s s.store fun r _ => ∃ v, r.toValue = .ok v := by
  unfold writeAudit
  apply spares_commit rfl
  intro r store h
  simp only [auditRow, Transaction.bind_eq_ok, Transaction.pure_eq_ok] at h
  obtain ⟨_, _, -, _, _, -, _, _, -, _, _, -, _, _, -, _, _, -, _, _, -, _, _, -, _, _, -, _, _, -, rfl, -⟩ := h
  exact ⟨_, rfl⟩

end Administration

namespace Command

variable {env : Environment} {s : Service}

theorem spares_taking {take : Registry → Except Fault Unit × Registry} :
    (taking take).Spares s s.store fun _ _ => True := by
  unfold taking Spares
  dsimp only
  rcases take s.locks with ⟨result, locks⟩
  cases result with
  | ok _ => trivial
  | error e => rfl

theorem spares_releasing {owner : Owner} : (releasing owner).Spares s s.store fun _ _ => True := by
  unfold releasing
  rw [spares_bind, spares_get]
  split <;> simp

/-- Every command but the one that goes on when it has changed the store leaves it as it was when it fails. -/
theorem spares_run (hs : s.store.IsKeyed) {k : Command} (hk : ∀ caller pipeline, k ≠ .healthSummary caller pipeline) :
    (k.run env).Spares s s.store fun _ _ => True := by
  cases k with
  | createLead values => exact spares_commit_self
  | createPipeline actor data => exact spares_settle_self.bind fun _ _ _ => trivial
  | addStage actor pipeline data => exact Administration.spares_addStage.bind fun _ _ _ => trivial
  | addCriterion actor stage data => exact Administration.spares_addCriterion.bind fun _ _ _ => trivial
  | updateCriterion actor criterion data shared => exact Administration.spares_updateCriterion.bind fun _ _ _ => trivial
  | validatePipeline pipeline => exact spares_reading_bind rfl fun _ _ => trivial
  | loadCriteria stage => exact Administration.spares_checksOf.bind fun _ _ _ => trivial
  | setFlag actor flag lead criterion value notes =>
    exact spares_settle_self.bind fun _ _ _ => trivial
  | statesFor lead criteria => exact spares_reading_bind rfl fun _ _ => trivial
  | enroll caller lead pipeline note => exact (Enrollment.spares_enroll hs).bind fun _ _ _ => trivial
  | enrollMany caller leads pipeline skipExisting note =>
    exact (Enrollment.spares_enrollMany hs).bind fun _ _ _ => trivial
  | advance caller entry stage knowledge note => exact Advancement.spares_advance.bind fun _ _ _ => trivial
  | preview caller entry knowledge => exact Advancement.leads_preview.spares.bind fun _ _ _ => trivial
  | archive caller entry reason => exact Closing.leads_archive.spares.bind fun _ _ _ => trivial
  | transfer caller entry pipeline reason note => exact (Closing.spares_transfer hs).bind fun _ _ _ => trivial
  | getEntry caller entry => exact spares_reading_bind rfl fun _ _ => trivial
  | listActive caller pipeline => exact spares_reading_bind rfl fun _ _ => trivial
  | history entry => exact spares_reading_bind rfl fun _ _ => trivial
  | healthSummary caller pipeline => exact absurd rfl (hk caller pipeline)
  | writeAudit row =>
    apply Administration.spares_writeAudit.bind
    rintro r s' ⟨v, hv⟩
    exact (spares_reading_ok hv).mpr trivial
  | addRow table values => exact spares_commit_self.bind fun _ _ _ => trivial
  | changeRow table id values => exact spares_commit_self.bind fun _ _ _ => trivial
  | dump tables => exact spares_reading_bind rfl fun _ _ => trivial
  | hold owner key waiter wait =>
    unfold run runIn
    exact spares_taking
  | holdMany owner keys wait =>
    unfold run runIn
    exact spares_taking
  | release owner => exact spares_releasing

theorem store_of_run (hs : s.store.IsKeyed) {k : Command} {e : Fault} (h : (k.run env s).1 = .error e) :
    (k.run env s).2.store = s.store ∨
      ∃ caller pipeline p, k = .healthSummary caller pipeline ∧ s.store.pipeline pipeline = .ok p ∧
        HealthSummary.Halts p e s.store (k.run env s).2.store := by
  by_cases hhealth : ∃ caller pipeline, k = .healthSummary caller pipeline
  . obtain ⟨caller, pipeline, rfl⟩ := hhealth
    unfold run runIn at *
    dsimp only at h ⊢
    rcases hop : Administration.healthSummary (runIn.call (some 0) env caller).window pipeline
      (runIn.call (some 0) env caller).now s with ⟨r, s'⟩
    cases r with
    | ok summary =>
      rw [bind_of_ok hop] at h
      cases h
    | error f =>
      rw [bind_of_error hop] at h ⊢
      cases h
      refine (Administration.store_of_healthSummary hs hop).imp_right ?_
      rintro ⟨p, hp, hhalts⟩
      exact ⟨caller, pipeline, p, rfl, hp, hhalts⟩
  . simp only [not_exists] at hhealth
    exact .inl ((spares_run hs hhealth).store_of_error h)

end Command

end StageGate
