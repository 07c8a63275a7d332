import StageGate.Command
import StageGate.Proofs.Entries

/-!
This module contains that the operations of the services take steps of one effect each, and leave the store
as it was if they end in a fault.
-/

namespace StageGate

open Operation

/-! ## Locks -/

namespace Operation

variable {α : Type} {s : Service}

theorem leads_holdingKey {base : Store} {key : LockKey} {waiter : Waiter} {wait : Wait}
    {body : Operation α} (post : α → Store → Prop) (hs : s.store = base)
    (hb : ∀ table, Leads body { s with locks := { s.locks with table } } base fun a s' => post a s'.store) :
    Leads (holdingKey key waiter wait body) s base fun a s' => post a s'.store := by
  apply leads_holding post hs
  . simp
  . exact fun table _ => hb table

theorem isUsable_of_takeAll {table taken : LockTable} {owner : Owner} {keys : List LockKey} {wait : Wait}
    (h : table.takeAll owner keys wait = .ok taken) : keys.all LockKey.isUsable := by
  unfold LockTable.takeAll at h
  rw [bind_eq_ok] at h
  obtain ⟨left, -, h⟩ := h
  cases ho : LockKey.areOrdered keys with
  | false =>
    rw [ho] at h
    cases h
  | true =>
    unfold LockKey.areOrdered at ho
    rw [Bool.and_eq_true] at ho
    exact ho.1

theorem leads_holdingKeys_commit {keys : List LockKey} {wait : Wait} {t : Transaction α}
    {post : α → Store → Prop} (h : keys.all LockKey.isUsable → t.Leads s.store post) :
    Leads (holdingKeys keys wait (commit t)) s s.store fun a s' => post a s'.store := by
  apply leads_holding post rfl
  . simp
  . intro table htable
    rw [LockTable.enterAll_eq, LockTable.orSame_eq_ok] at htable
    exact Leads.commit (h (isUsable_of_takeAll htable))

end Operation

/-! ## Enrollment -/

namespace Enrollment

variable {c : Call} {s : Service}

theorem leads_enroll {lead pipeline note : Value} (hs : s.store.IsSound) :
    (enroll c lead pipeline note).Leads s s.store fun _ s' => s.store.Steps .enroll 1 s'.store := by
  unfold enroll
  apply leads_reading_bind rfl (by simp)
  intro l hl
  apply leads_reading_bind rfl (by simp)
  intro p _
  dsimp only
  apply Leads.bind (leads_holdingKey _ rfl fun _ =>
    Leads.commit (leads_refusingEntry (leads_openRecorded hs (Store.knows_of_lead hl))))
  rintro e s' ⟨hstep, v, hv⟩
  -- The entry is shown after it is there for good, so the showing must not fail.
  rw [← Store.view_congr (hstep.stages_eq (by simp))] at hv
  rw [leads_reading_ok hv]
  exact hstep.steps

theorem knows_of_candidates {names : List Value} {store : Store} {leads : List Candidate}
    (h : candidates names store = .ok leads) : ∀ l ∈ leads, store.Knows l.lead := by
  unfold candidates at h
  simp only [bind_eq_ok] at h
  obtain ⟨_, -, ids, hids, h⟩ := h
  intro l hl
  obtain ⟨name, -, hname⟩ := (mem_iff_of_mapM_eq_ok h).mp hl
  split at hname
  . next x hx =>
    cases hname
    have hmem := List.mem_of_find?_eq_some hx
    rw [List.mem_filter, List.contains_iff_mem] at hmem
    obtain ⟨v, -, hv⟩ := (mem_iff_of_mapM_eq_ok hids).mp hmem.2
    exact ⟨List.mem_map_of_mem hmem.1, Store.checkInt_of_rowId? hv⟩
  . cases hname

theorem exists_views {store : Store} {window : Value} {now : Instant} {entries : List Entry}
    (h : ∀ e ∈ entries, ∃ v, store.view window now e = .ok v) :
    ∃ views, entries.mapM (store.view window now) = .ok views ∧ views.length = entries.length := by
  induction entries with
  | nil => exact ⟨[], rfl, rfl⟩
  | cons e entries ih =>
    obtain ⟨v, hv⟩ := h e (by simp)
    obtain ⟨views, hviews, hlength⟩ := ih fun x hx => h x (by simp [hx])
    refine ⟨v :: views, ?_, by simp [hlength]⟩
    rw [List.mapM_cons, hv, hviews]
    rfl

theorem leads_enrollMany {leads pipeline : Value} {skipExisting : Bool} {note : Value}
    (hs : s.store.IsSound) : (enrollMany c leads pipeline skipExisting note).Leads s s.store fun b s' =>
      s.store.Steps .enroll b.enrolled.length s'.store := by
  unfold enrollMany
  apply leads_reading_bind rfl (by simp)
  intro names _
  apply leads_reading_bind rfl (by simp)
  intro p _
  split
  . exact .refl
  apply leads_reading_bind rfl (by simp)
  intro leads hleads
  dsimp only
  apply Leads.bind (leads_holdingKeys_commit fun _ => leads_openEach hs (knows_of_candidates hleads))
  rintro ⟨entries, skips⟩ s' ⟨hsteps, hviews⟩
  obtain ⟨views, hviews, hlength⟩ := exists_views hviews
  have hsame : s'.store.view c.window c.now = s.store.view c.window c.now :=
    funext fun e => Store.view_congr (hsteps.stages_eq (by simp)) c.window c.now e
  rw [← hsame] at hviews
  dsimp only
  rw [leads_bind, leads_reading_ok hviews, leads_pure]
  dsimp only
  rw [hlength]
  exact hsteps

end Enrollment

/-! ## Closing -/

namespace Closing

variable {c : Call} {s : Service}

theorem leads_archive {entry reason : Value} :
    (archive c entry reason).Leads s s.store fun _ s' => s.store.Steps .archive 1 s'.store := by
  unfold archive
  apply leads_reading_bind rfl (by simp)
  intro e he
  dsimp only
  apply Leads.bind (leads_holdingKey _ rfl fun _ =>
    Leads.commit (leads_archiveRecorded (Store.mem_of_entry he)))
  rintro closed s' ⟨hstep, hclosed⟩
  obtain ⟨v, hv⟩ := Store.exists_view_of_closed hclosed
  rw [leads_reading_ok hv]
  exact hstep.steps

theorem leads_transfer {entry pipeline reason note : Value} (hs : s.store.IsSound) :
    (transfer c entry pipeline reason note).Leads s s.store fun _ s' =>
      s.store.Steps .transfer 1 s'.store := by
  unfold transfer
  apply leads_reading_bind rfl (by simp)
  intro e he
  apply leads_reading_bind rfl (by simp)
  intro p hp
  dsimp only
  rw [leads_bind]
  refine (leads_holdingKeys_commit fun hkeys => Enrollment.leads_refusingEntry
    (leads_transferRecorded hs (Store.mem_of_entry he) ?_)).mono ?_
  -- A name of which a key was made can be looked up, so it stands for the pipeline as it is.
  . apply Store.rowId?_of_pipeline _ (Enrollment.pipeline_of_enrollable hp)
    simpa [LockKey.isUsable, Value.isKey] using hkeys
  . rintro ⟨closed, opened⟩ s' ⟨hstep, hclosed, v, hv⟩
    rw [← Store.view_congr (hstep.stages_eq (by simp))] at hv
    obtain ⟨v', hv'⟩ := Store.exists_view_of_closed hclosed
    have hviews : (do
        return ⟨← s'.store.view c.window c.now closed, ← s'.store.view c.window c.now opened⟩ :
          Except Fault Transfer) = .ok ⟨v', v⟩ := by
      rw [hv, hv']
      rfl
    rw [leads_reading_ok hviews]
    exact hstep.steps

end Closing

/-! ## Advancement -/

namespace Advancement

variable {c : Call} {s : Service} {e : Entry}

theorem leads_loadChecks {stage : Int} :
    (loadChecks stage).Leads s s.store fun _ s' => s'.store = s.store := by
  unfold loadChecks
  rw [leads_bind, leads_get]
  have hplain := s.cache.plain_load stage (s.store.sourcesOf stage)
  cases h : s.cache.load stage (s.store.sourcesOf stage) with
  | ok r => simp
  | error e => simpa using (hplain e h).isClear

theorem leads_evaluateExit {k : Knowledge} :
    (evaluateExit c e k).Leads s s.store fun _ s' => s'.store = s.store := by
  unfold evaluateExit
  apply Leads.bind leads_loadChecks
  intro checks s' hs'
  rw [leads_reading hs']
  exact ⟨by simp, fun _ _ => hs'⟩

theorem leads_requireActive {base : Store} (hs : s.store = base) :
    (requireActive e).Leads s base fun _ s' => s' = s ∧ e.isActive := by
  unfold requireActive
  split
  . next ha => exact ⟨rfl, ha⟩
  . simp [hs]

theorem leads_preview {entry : Value} {k : Knowledge} :
    (preview c entry k).Leads s s.store fun _ s' => s'.store = s.store := by
  unfold preview
  apply leads_reading_bind rfl (by simp)
  intro e _
  apply Leads.bind (leads_requireActive rfl)
  rintro _ s' ⟨rfl, _⟩
  rw [leads_bind]
  exact leads_evaluateExit

theorem leads_advanceHeld {name : Value} {k : Knowledge} {note : Value} (hs : s.store.IsSound)
    (he : e ∈ s.store.entries) : (advanceHeld c e name k note).Leads s s.store fun m s' =>
      s.store.Steps .move (if m.ok then 1 else 0) s'.store := by
  unfold advanceHeld
  apply Leads.bind (leads_requireActive rfl)
  rintro _ s' ⟨rfl, hactive⟩
  apply leads_reading_bind rfl (by simp)
  intro target htarget
  apply leads_reading_bind rfl (by simp)
  intro current hcurrent
  rw [Store.follow_eq_ok] at hcurrent
  apply Leads.bind leads_evaluateExit
  rintro ⟨verdict, sla⟩ s' hs'
  dsimp only
  split
  . rw [leads_commit hs', hs']
    apply (leads_move hs ⟨he, hactive⟩ hcurrent htarget).mono
    rintro m s'' ⟨hstep, hok⟩
    simp only [hok, ↓reduceIte]
    exact hstep.steps
  . apply leads_reading_bind hs' (by simp)
    intro view _
    rw [leads_pure]
    simp only [Move.ok]
    rw [hs']
    exact .refl

theorem leads_advance {entry name : Value} {k : Knowledge} {note : Value} (hs : s.store.IsSound) :
    (advance c entry name k note).Leads s s.store fun m s' =>
      s.store.Steps .move (if m.ok then 1 else 0) s'.store := by
  unfold advance
  apply leads_reading_bind rfl (by simp)
  intro e he
  have he := Store.mem_of_entry he
  apply leads_reading_bind rfl (by simp)
  intro left _
  dsimp only
  apply leads_holdingKey (fun (m : Move) s' => s.store.Steps .move (if m.ok then 1 else 0) s') rfl
  intro table
  apply leads_reading_bind rfl (by simp)
  intro capped _
  cases capped with
  | none => exact leads_advanceHeld hs he
  | some stage =>
    apply leads_holdingKey (fun (m : Move) s' => s.store.Steps .move (if m.ok then 1 else 0) s') rfl
    intro table
    exact leads_advanceHeld hs he

end Advancement

end StageGate
