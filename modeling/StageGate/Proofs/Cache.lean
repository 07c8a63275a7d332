import StageGate.Proofs.Commands
import StageGate.Proofs.Turns

/-!
This module contains that the cache of compiled criteria does not show: whatever became of the criteria of
a stage in the meantime, loading them answers what compiling them answers.
-/

namespace StageGate

open Operation

/-! ## Operations that cannot but fail -/

namespace Operation

section

variable {α β : Type} {s : Service}

def Fails (op : Operation α) (s : Service) : Prop :=
  ∃ f, (op s).1 = .error f

theorem fails_bind {op : Operation β} {f : β → Operation α}
    (h : ∀ b s', op s = (.ok b, s') → Fails (f b) s') : Fails (op >>= f) s := by
  unfold Fails
  rcases hop : op s with ⟨r, s'⟩
  cases r with
  | ok b =>
    rw [bind_of_ok hop]
    exact h b s' hop
  | error e =>
    rw [bind_of_error hop]
    exact ⟨e, rfl⟩

theorem Fails.bind {op : Operation β} (h : Fails op s) (f : β → Operation α) : Fails (op >>= f) s := by
  apply fails_bind
  intro b s' hop
  obtain ⟨e, he⟩ := h
  rw [hop] at he
  cases he

theorem fails_reading_bind {g : Store → Except Fault β} {f : β → Operation α}
    (h : ∀ b, g s.store = .ok b → Fails (f b) s) : Fails (reading g >>= f) s := by
  apply fails_bind
  intro b s' hop
  rw [reading_eq, Prod.mk.injEq] at hop
  obtain ⟨hb, rfl⟩ := hop
  exact h b hb

theorem fails_holding {enter : LockTable → Except Fault Unit × LockTable} {release : LockTable → LockTable}
    {body : Operation α} (h : ∀ table, Fails body { s with locks := { s.locks with table } }) :
    Fails (holding enter release body) s := by
  unfold Fails holding
  rcases enter s.locks.table with ⟨entered, table⟩
  cases entered with
  | error e => exact ⟨e, rfl⟩
  | ok _ => exact h table

end

end Operation

namespace Advancement

variable {c : ZonedCall} {e : Entry} {k : Knowledge} {s : Service}

theorem fails_advanceHeld {target note : Value} (h : Fails (loadChecks e.stage) s) :
    Fails (advanceHeld c e target k note) s := by
  unfold advanceHeld
  apply fails_bind
  intro _ s' hs'
  have hsame : s' = s := by
    unfold requireActive at hs'
    split at hs' <;> cases hs'
    rfl
  subst hsame
  apply fails_reading_bind
  intro stage _
  apply fails_reading_bind
  intro current _
  apply Fails.bind
  exact h.bind _

theorem fails_advance {entry target note : Value} (he : s.store.entry entry = .ok e)
    (h : ∀ locks, Fails (loadChecks e.stage) { s with locks }) :
    Fails (advance c entry target k note) s := by
  unfold advance
  apply fails_reading_bind
  intro e' he'
  rw [he] at he'
  cases he'
  apply fails_reading_bind
  intro left _
  apply fails_holding
  intro table
  apply fails_reading_bind
  intro capped _
  cases capped with
  | none => exact fails_advanceHeld (h _)
  | some stage =>
    apply fails_holding
    intro table
    exact fails_advanceHeld (h _)

end Advancement

/-! ## Histories -/

/-- What can happen to criteria and their cache: services run, rows change behind them, stages are loaded. -/
inductive Event where
  | turn (t : Turn)
  | rewrite (rows : List Criterion) (documents : ∀ c ∈ rows, c.rule.isJson)
  | load (stage : Int)

namespace Service

def meet (s : Service) : Event → Service
  | .turn t => s.after t
  | .rewrite rows _ => { s with store := { s.store with criteria := rows } }
  | .load stage => (loadChecks stage s).2

def history (events : List Event) : Service :=
  events.foldl meet empty

theorem trusty_meet {s : Service} (hs : s.store.IsSound) (h : s.IsTrusty) (event : Event) :
    (s.meet event).store.IsSound ∧ (s.meet event).IsTrusty := by
  cases event with
  | turn t =>
    obtain ⟨n, hsteps, -⟩ := exists_steps hs t
    exact ⟨hs.steps hsteps, (t.command.turns_run t.env).after s h, hsteps.hasDocuments h.documents⟩
  | rewrite rows documents => exact ⟨hs.congr rfl rfl rfl, h.faithful, documents⟩
  | load stage =>
    refine ⟨?_, (loadChecks_of_isTrusty h stage).2⟩
    unfold meet
    rw [loadChecks_store]
    exact hs

theorem trusty_foldl {s : Service} (hs : s.store.IsSound) (h : s.IsTrusty) (events : List Event) :
    (events.foldl meet s).store.IsSound ∧ (events.foldl meet s).IsTrusty := by
  induction events generalizing s with
  | nil => exact ⟨hs, h⟩
  | cons event events ih =>
    obtain ⟨hs, h⟩ := trusty_meet hs h event
    exact ih hs h

theorem trusty_history (events : List Event) :
    (history events).store.IsSound ∧ (history events).IsTrusty := by
  have hempty : empty.IsTrusty := ⟨fun x hx => (by cases hx), fun c hc => (by cases hc)⟩
  exact trusty_foldl Store.isSound_empty hempty events

theorem isTrusty_reached (ts : List Turn) : (reached ts).IsTrusty := by
  have h := (trusty_history (ts.map .turn)).2
  unfold history at h
  rw [List.foldl_map] at h
  exact h

end Service

/-- A criterion that is in the way of its stage as long as it is active. -/
def Criterion.IsMalformed (c : Criterion) : Prop :=
  ∃ f, c.source.compile = .error f

namespace Service

/--
After any history, loading the criteria of a stage answers what compiling its active ones in their order
answers. It fails exactly if one of those is malformed, and then nothing moves out of the stage.
-/
theorem history_cache_invisible (events : List Event) (stage : Int) :
    let s := history events
    (loadChecks stage s).1 = CheckSource.compileAll (s.store.sourcesOf stage) ∧
      (Fails (loadChecks stage) s ↔
        ∃ c ∈ s.store.criteria, c.stage = stage ∧ c.isActive ∧ c.IsMalformed) ∧
      ((∃ c ∈ s.store.criteria, c.stage = stage ∧ c.isActive ∧ c.IsMalformed) →
        ∀ c entry target k note e, s.store.entry entry = .ok e → e.stage = stage →
          Fails (Advancement.advance c entry target k note) s) := by
  intro s
  have htrusty : s.IsTrusty := (trusty_history events).2
  have hfails {s : Service} (h : s.IsTrusty) : Fails (loadChecks stage) s ↔
      ∃ c ∈ s.store.criteria, c.stage = stage ∧ c.isActive ∧ c.IsMalformed := by
    unfold Fails
    rw [(loadChecks_of_isTrusty h stage).1, CheckSource.compileAll_eq_error]
    constructor
    . rintro ⟨source, hsource, f, hf⟩
      obtain ⟨c, hc, hstage, hactive, rfl⟩ := Store.mem_sourcesOf.mp hsource
      exact ⟨c, hc, hstage, hactive, f, hf⟩
    . rintro ⟨c, hc, hstage, hactive, f, hf⟩
      exact ⟨c.source, Store.mem_sourcesOf.mpr ⟨c, hc, hstage, hactive, rfl⟩, f, hf⟩
  refine ⟨(loadChecks_of_isTrusty htrusty stage).1, hfails htrusty, ?_⟩
  rintro hmalformed c entry target k note e he rfl
  apply Advancement.fails_advance he
  intro locks
  exact (hfails (htrusty.locked locks)).mpr hmalformed

end Service

end StageGate
