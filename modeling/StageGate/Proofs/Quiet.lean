import StageGate.Administration
import StageGate.Proofs.Clear.Operations
import StageGate.Proofs.Soundness

/-!
This module contains the transactions that leave the entries alone: they write the configuration, leads
and flags, what they record is not about an entry, and at most an entry remembers another health.
-/

namespace StageGate

namespace Transaction

section

variable {α β : Type}

/-- A transaction that takes quiet steps only, wherever it starts. -/
def IsQuiet (t : Transaction α) : Prop :=
  ∀ s, t.Leads s fun _ s' => s.Steps .quiet 0 s'

@[simp]
theorem isQuiet_pure (a : α) : IsQuiet (pure a) := by
  intro s
  exact .refl

theorem isQuiet_get : IsQuiet get := by
  intro s
  exact .refl

theorem Leads.quiet {t : Transaction α} {s s' : Store} (ht : t.Leads s' fun _ s'' => s'.Steps .quiet 0 s'')
    (h : s.Steps .quiet 0 s') : t.Leads s' fun _ s'' => s.Steps .quiet 0 s'' := by
  apply ht.mono
  intro _ s'' h'
  exact h.trans h'

theorem isQuiet_bind {t : Transaction β} {f : β → Transaction α} (ht : t.IsQuiet) (hf : ∀ b, (f b).IsQuiet) :
    (t >>= f).IsQuiet := by
  intro s
  apply Leads.bind (ht s)
  intro b s' h
  exact (hf b s').quiet h

theorem isQuiet_lift_bind {x : Except Fault β} {f : β → Transaction α} (hx : Clear x)
    (hf : ∀ b, x = .ok b → (f b).IsQuiet) : IsQuiet (liftM x >>= f) := by
  intro s
  rw [leads_bind, leads_lift]
  exact ⟨hx, fun b hb => hf b hb s⟩

theorem isQuiet_reading {f : Store → Except Fault α} (hf : ∀ s, Clear (f s)) : (reading f).IsQuiet := by
  intro s
  rw [leads_reading]
  exact ⟨hf s, fun _ _ => .refl⟩

theorem isQuiet_reading_bind {g : Store → Except Fault β} {f : β → Transaction α} (hg : ∀ s, Clear (g s))
    (hf : ∀ s b, g s = .ok b → (f b).IsQuiet) : IsQuiet (reading g >>= f) := by
  intro s
  apply leads_reading_bind (hg s)
  intro b hb
  exact hf s b hb s

theorem isQuiet_demand {holds : Bool} {e : Fault} (he : e.IsClear) : (demand holds e).IsQuiet := by
  intro s
  rw [leads_demand]
  split
  . exact .refl
  . exact he

theorem isQuiet_aside {f : Store → Store} (hstages : ∀ s, (f s).stages = s.stages)
    (hentries : ∀ s, (f s).entries = s.entries) (haudit : ∀ s, (f s).audit = s.audit)
    (hkept : ∀ s : Store, s.Keeps (f s)) : IsQuiet (modify f) := by
  intro s
  rw [leads_modify]
  exact (Store.Step.aside (hstages s) (hentries s) (haudit s) (hkept s)).steps

theorem leads_record {n : Note} {time : Instant} {s : Store} {post : Unit → Store → Prop}
    (h : ∀ actor, post () (s.addAudit (n.row actor time s))) : (record n time).Leads s post := by
  unfold record
  apply leads_lift_bind (clear_signature n.actor)
  intro actor _
  rw [leads_bind, leads_get]
  exact h actor

theorem isQuiet_record {n : Note} (hn : n.subject ≠ .entry) (time : Instant) : (record n time).IsQuiet := by
  intro s
  apply leads_record
  intro actor
  exact (Store.Step.note n actor time hn).quiet

theorem isQuiet_forIn {f : β → PUnit → Transaction (ForInStep PUnit)} {bs : List β}
    (h : ∀ b u, (f b u).IsQuiet) (u : PUnit) : IsQuiet (forIn bs u f) := by
  induction bs with
  | nil =>
    rw [List.forIn_nil]
    exact isQuiet_pure u
  | cons b bs ih =>
    rw [List.forIn_cons]
    apply isQuiet_bind (h b u)
    intro r
    cases r with
    | done u => exact isQuiet_pure u
    | yield u => exact ih

end

end Transaction

open Transaction

/-! ## Rows that are written -/

theorem Store.Holds.putEntry {s : Store} {e x : Entry} (h : s.Holds x) (hne : x.id ≠ e.id) :
    (s.putEntry e).Holds x :=
  ⟨mem_putEntry_of_ne h.mem hne, h.isActive⟩

theorem Transaction.leads_addEntry {s : Store} {e : Entry} {post : Unit → Store → Prop} (h : s.admits e) :
    (addEntry e).Leads s post ↔ post () (s.addEntry e) := by
  simp [addEntry, demandAdmission, leads_demand, h]

theorem Transaction.putEntry_bind {α : Type} {s : Store} {e : Entry} (h : s.admits e) (f : Unit → Transaction α) :
    (putEntry e >>= f) s = f () (s.putEntry e) := by
  have hput : putEntry e s = .ok ((), s.putEntry e) := by
    change demand (s.admits e) _ s >>= _ = _
    rw [h]
    rfl
  change putEntry e s >>= _ = _
  rw [hput]
  rfl

theorem Transaction.leads_putEntry {s : Store} {e : Entry} {post : Unit → Store → Prop} (h : s.admits e) :
    (putEntry e).Leads s post ↔ post () (s.putEntry e) := by
  simp [putEntry, demandAdmission, leads_demand, h]

/-! ## Configuration -/

namespace Configuration

variable {a : Author}

theorem isQuiet_recordCreation {subject : Subject} {id pipeline : Int} {diff : Fields}
    (h : subject ≠ .entry) : (recordCreation a subject id pipeline diff).IsQuiet :=
  isQuiet_record h a.now

theorem rule_of_readCriterion {stage : Stage} {data : Value} {s : Store} {c : Criterion}
    (h : readCriterion a stage data s = .ok c) : c.rule.isJson := by
  unfold readCriterion at h
  simp only [bind_eq_ok, pure, Except.pure, Except.ok.injEq] at h
  obtain ⟨_, -, _, -, _, -, _, hrule, _, -, _, -, _, -, rfl⟩ := h
  exact isJson_of_storedRule hrule

theorem isQuiet_addCriterion {stage : Stage} {data : Value} : (addCriterion a stage data).IsQuiet := by
  unfold addCriterion
  apply isQuiet_reading_bind (by simp)
  intro _ c hc
  have hrule := rule_of_readCriterion hc
  apply isQuiet_bind
  . apply isQuiet_aside
    . simp
    . simp
    . simp
    . intro s
      refine ⟨fun _ h => h, fun _ h => h, fun x hx => ?_⟩
      rw [List.mem_append, List.mem_singleton] at hx
      rcases hx with hx | rfl
      . exact .inr ⟨x, hx, rfl⟩
      . exact .inl hrule
  intro _
  apply isQuiet_bind (isQuiet_recordCreation (by simp))
  intro _
  apply isQuiet_pure

theorem isLimit_of_number {limit v : Value} (h : limit.isLimit) (hv : Column.number limit = .ok v) :
    v.isLimit := by
  cases limit with
  | null =>
    cases hv
    rfl
  | int n =>
    unfold Column.number at hv
    rw [bind_eq_ok] at hv
    obtain ⟨_, -, hv⟩ := hv
    cases hv
    exact h
  | _ => simp [Value.isLimit] at h

theorem isDeadline_of_number {deadline v : Value} (h : deadline.isDeadline)
    (hv : Column.number deadline = .ok v) : v.isDeadline := by
  cases deadline with
  | int n =>
    unfold Column.number at hv
    rw [bind_eq_ok] at hv
    obtain ⟨_, -, hv⟩ := hv
    cases hv
    exact h
  | _ => simp [Value.isDeadline] at h

theorem of_checkStageValues {path : String} {deadline limit : Value} {u : Unit}
    (h : checkStageValues path deadline limit = .ok u) : deadline.isDeadline ∧ limit.isLimit := by
  unfold checkStageValues at h
  split at h
  . cases h
  . next hd =>
    split at h
    . cases h
    . next hl => exact ⟨by simpa using hd, by simpa using hl⟩

theorem of_readStage {pipeline : Int} {order : Value} {fields : Fields} {s : Store} {stage : Stage}
    (h : readStage pipeline order fields s = .ok stage) :
    stage.id = Store.nextId (s.stages.map (·.id)) ∧ stage.pipeline = pipeline ∧ stage.limit.isLimit ∧
      stage.deadline.isDeadline ∧ Column.number order = .ok stage.order := by
  unfold readStage at h
  simp only [bind_eq_ok, pure, Except.pure, Except.ok.injEq] at h
  obtain ⟨_, hcheck, _, _, _, _, _, horder, _, hdeadline, _, _, _, _, limit, hlimit, rfl⟩ := h
  have hcheck := of_checkStageValues hcheck
  exact ⟨rfl, rfl, isLimit_of_number hcheck.2 hlimit, isDeadline_of_number hcheck.1 hdeadline, horder⟩

theorem magnitude?_of_nextOrder {orders : List Value} {next : Value} (h : nextOrder orders = .ok next) :
    next.magnitude?.isSome := by
  unfold nextOrder at h
  split at h
  . exact Value.magnitude?_of_succ h
  . cases h
    rfl

theorem same_of_requireOrder {fields : Fields} {next order : Value} (h : requireOrder fields next = .ok order) :
    order.same next := by
  unfold requireOrder at h
  dsimp only at h
  split at h
  . next hsame =>
    cases h
    exact hsame
  . cases h

theorem leads_addStageAfter {s : Store} {pipeline : Int} {orders : List Value} {data : Value}
    (hp : s.HasPipeline pipeline) :
    (addStageAfter a pipeline orders data).Leads s fun _ s' => s.Steps .quiet 0 s' := by
  unfold addStageAfter
  apply leads_lift_bind (by simp)
  intro fields _
  apply leads_lift_bind (by simp)
  intro next hnext
  apply leads_lift_bind (by simp)
  intro order horder
  apply leads_reading_bind (by simp)
  intro stage hstage
  obtain ⟨hid, hpipeline, hlimit, hdeadline, hkept⟩ := of_readStage hstage
  have hnumber := Column.isNumber_of_same (magnitude?_of_nextOrder hnext) (same_of_requireOrder horder) hkept
  -- The stage is the one row written here that later steps depend on.
  unfold Transaction.addStage
  rw [leads_bind, leads_bind, leads_get, leads_bind, leads_demand]
  split
  . next hseat =>
    rw [leads_modify]
    have hfits : s.Fits stage := ⟨hdeadline, hnumber, by rwa [hpipeline], hseat⟩
    apply Leads.quiet _ (Store.Step.addStage hid hlimit hfits).steps
    refine isQuiet_bind (isQuiet_recordCreation (by simp)) (fun _ => ?_) _
    apply isQuiet_lift_bind (by simp)
    intro criteria _
    apply isQuiet_bind
    . apply isQuiet_forIn
      intro criterion u
      apply isQuiet_bind isQuiet_addCriterion
      intro _
      apply isQuiet_pure
    . intro _
      apply isQuiet_pure
  . rw [Fault.isClear_violated]
    decide

theorem leads_addStage {s : Store} {pipeline : Pipeline} {data : Value} (hp : s.HasPipeline pipeline.id) :
    (Configuration.addStage a pipeline data).Leads s fun _ s' => s.Steps .quiet 0 s' := by
  unfold Configuration.addStage
  rw [leads_bind, leads_get, leads_bind]
  exact leads_addStageAfter hp

theorem leads_addStages {s : Store} {pipeline : Int} {added : List (Stage × Value)} {items : List Value}
    (hp : s.HasPipeline pipeline) :
    (addStages a pipeline added items).Leads s fun _ s' => s.Steps .quiet 0 s' := by
  -- By induction on the documents; the pipeline is still there for the next one.
  induction items generalizing s added with
  | nil => exact .refl
  | cons data rest ih =>
    unfold addStages
    apply Leads.bind (leads_addStageAfter hp)
    intro next s' hsteps
    apply Leads.quiet _ hsteps
    exact ih (hsteps.pipelines_subset hp)

theorem isQuiet_createPipeline {data : Value} : (createPipeline a data).IsQuiet := by
  unfold createPipeline
  apply isQuiet_lift_bind (by simp)
  intro fields _
  apply isQuiet_reading_bind (by simp)
  intro _ p _ s
  unfold addPipeline
  rw [leads_bind, leads_modify]
  have hkeeps : s.Keeps { s with pipelines := s.pipelines ++ [p] } := by
    refine ⟨fun _ h => h, ?_, fun c hc => .inr ⟨c, hc, rfl⟩⟩
    rw [List.map_append]
    exact List.subset_append_left ..
  have hstep : s.Step .quiet { s with pipelines := s.pipelines ++ [p] } := .aside rfl rfl rfl hkeeps
  apply Leads.quiet _ hstep.quiet
  apply leads_lift_bind (by simp)
  intro items _
  apply Leads.bind (leads_addStages (by simp [Store.HasPipeline]))
  intro added s' hsteps
  apply Leads.quiet _ hsteps
  have hrecord : IsQuiet (do
      recordCreation a .pipeline p.id p.id [("name", .text p.name), ("stages", .int added.length)]
      return p) := by
    apply isQuiet_bind (isQuiet_recordCreation (by simp))
    intro _
    apply isQuiet_pure
  dsimp only
  split
  . apply leads_lift_bind (by simp)
    intro _ _
    exact hrecord _
  . exact hrecord _

theorem rule_of_readUpdate {c updated : Criterion} {fields : Fields} (h : readUpdate c fields = .ok updated) :
    updated.rule.isJson := by
  unfold readUpdate at h
  simp only [bind_eq_ok] at h
  obtain ⟨_, -, rule, hrule, h⟩ := h
  have hrule := isJson_of_storedRule hrule
  -- The name and the place may be left as they are, and the rule is the same in all four cases.
  split at h <;> simp only [bind_eq_ok] at h <;> obtain ⟨name, -, h⟩ := h <;> split at h <;>
    simp only [bind_eq_ok, pure, Except.pure, Except.ok.injEq] at h <;>
    obtain ⟨_, -, _, -, _, -, rfl⟩ := h <;> exact hrule

theorem leads_updateCriterion {s : Store} {c : Criterion} {data : Value} {shared : Bool} (hc : c ∈ s.criteria) :
    (updateCriterion a c data shared).Leads s fun _ s' => s.Steps .quiet 0 s' := by
  unfold updateCriterion
  apply leads_lift_bind (by simp)
  intro fields _
  apply leads_lift_bind (by simp)
  intro updated hupdated
  have hrule := rule_of_readUpdate hupdated
  dsimp only
  generalize hstored : ({ updated with rule := _, updatedAt := _ } : Criterion) = stored
  have hkeeps : s.Keeps { s with criteria := s.criteria.map fun x => if x.id = stored.id then stored else x } := by
    refine ⟨fun _ h => h, fun _ h => h, fun x hx => ?_⟩
    rw [List.mem_map] at hx
    obtain ⟨y, hy, rfl⟩ := hx
    split
    -- The rule is a new one, or the one that the criterion had.
    . rw [← hstored]
      dsimp only
      split
      . exact .inl hrule
      . exact .inr ⟨c, hc, rfl⟩
    . exact .inr ⟨y, hy, rfl⟩
  have hstep : s.Step .quiet { s with criteria := s.criteria.map fun x => if x.id = stored.id then stored else x } :=
    .aside rfl rfl rfl hkeeps
  unfold putCriterion
  rw [leads_bind, leads_modify]
  apply Leads.quiet _ hstep.quiet
  apply leads_reading_bind (by simp)
  intro pipeline _
  refine isQuiet_bind (isQuiet_record (by simp) _) (fun _ => ?_) _
  apply isQuiet_pure

end Configuration

/-! ## Leads and flags -/

theorem Row.mem_insert {α : Type} {idOf : α → Int} {row x : α} {rows : List α} :
    x ∈ insert idOf row rows ↔ x = row ∨ x ∈ rows := by
  induction rows with
  | nil => simp [insert]
  | cons r rs ih =>
    unfold insert
    split
    . simp
    . simp only [List.mem_cons, ih]
      exact or_left_comm

theorem Row.ids_subset_put {α : Type} {idOf : α → Int} {old : Int} {row : α} {rows : List α}
    (h : idOf row = old) : rows.map idOf ⊆ (put idOf old row rows).map idOf := by
  intro i hi
  rw [List.mem_map] at hi ⊢
  obtain ⟨x, hx, rfl⟩ := hi
  unfold put
  by_cases hold : idOf x = old
  . exact ⟨row, mem_insert.mpr (.inl rfl), h.trans hold.symm⟩
  . exact ⟨x, mem_insert.mpr (.inr (by simp [hx, hold])), rfl⟩

theorem Direct.isQuiet_addLead {now : Instant} {values : Fields} : (addLead now values).IsQuiet := by
  unfold addLead
  apply isQuiet_bind
  . unfold add
    apply isQuiet_lift_bind (clear_checkTimes values)
    intro _ _
    apply isQuiet_bind (isQuiet_demand (by simp))
    intro _ s
    rw [leads_bind, leads_get]
    apply leads_lift_bind (clear_keepAll _ _)
    intro kept _
    apply leads_lift_bind (clear_givenId kept)
    intro id _
    apply leads_lift_bind (clear_checkRow_lead _ _ _ _ _)
    intro _ _
    rw [leads_bind, leads_set, leads_pure]
    exact Store.Step.quiet (.aside rfl rfl rfl
      ⟨Row.ids_subset_put rfl, fun _ h => h, fun c hc => .inr ⟨c, hc, rfl⟩⟩)
  . intro id
    apply isQuiet_reading
    simp

theorem Flagging.isQuiet_saveRow {isThere : Bool} {r : FlagRow} : (saveRow isThere r).IsQuiet := by
  unfold saveRow
  split <;> apply isQuiet_aside <;> intro s <;> first | rfl | exact .of_eq rfl rfl rfl

theorem Flagging.isQuiet_setFlag {a : Configuration.Author} {lead criterion : Value} {flag : Flag}
    {value : Bool} {notes : Value} : (setFlag a lead criterion flag value notes).IsQuiet := by
  unfold setFlag
  apply isQuiet_reading_bind (by simp)
  intro _ l _
  apply isQuiet_reading_bind (by simp)
  intro _ c _
  apply isQuiet_reading_bind (by simp)
  intro _ old _
  apply isQuiet_bind isQuiet_get
  intro s
  apply isQuiet_lift_bind (by simp)
  intro validatedBy _
  apply isQuiet_lift_bind (by simp)
  intro notes _
  apply isQuiet_bind isQuiet_saveRow
  intro _
  apply isQuiet_reading_bind (by simp)
  intro _ stage _
  apply isQuiet_bind (isQuiet_record (by simp) _)
  intro _
  apply isQuiet_pure

/-! ## Health -/

namespace HealthSummary

theorem entry_of_read {window : Value} {now : Instant} {s : Store} {e : Entry} {r : Reading}
    (h : read window now s e = .ok r) : r.entry = e := by
  rw [read_universal] at h
  simp only [bind_eq_ok] at h
  obtain ⟨_, _, _, _, h⟩ := h
  cases h
  rfl

theorem entries_of_mapM_read {window : Value} {now : Instant} {s : Store} {es : List Entry}
    {rs : List Reading} (h : es.mapM (read window now s) = .ok rs) : rs.map (·.entry) = es := by
  induction es generalizing rs with
  | nil =>
    cases h
    rfl
  | cons e es ih =>
    rw [List.mapM_cons] at h
    simp only [bind_eq_ok] at h
    obtain ⟨r, hr, rs', hrs, h⟩ := h
    cases h
    rw [List.map_cons, entry_of_read hr, ih hrs]

theorem steps_remembering {rs : List Reading} {s : Store} (hs : s.IsSound)
    (hids : (rs.map (·.entry.id)).Pairwise (· < ·)) (held : ∀ r ∈ rs, s.Holds r.entry) :
    s.Steps .quiet 0 (s.remembering rs) := by
  -- By induction on the readings: their ids differ, so the later entries are still as they were read.
  induction rs generalizing s with
  | nil => exact .refl
  | cons r rs ih =>
    rw [List.map_cons, List.pairwise_cons] at hids
    have hr := held r (by simp)
    have hstep := Store.Step.refresh r.health.bucket hr
    have hrest : ∀ x ∈ rs, (s.putEntry (r.entry.remember r.health.bucket)).Holds x.entry := by
      intro x hx
      apply (held x (by simp [hx])).putEntry
      have := hids.1 x.entry.id (List.mem_map_of_mem hx)
      change x.entry.id ≠ r.entry.id
      omega
    exact hstep.quiet.trans (ih (hs.step hstep) hids.2 hrest)

theorem mem_of_readActive {window : Value} {now : Instant} {pipeline : Int} {s : Store} {rs : List Reading}
    (h : readActive window now pipeline s = .ok rs) {r : Reading} (hr : r ∈ rs) :
    r.entry ∈ s.entries ∧ r.entry.pipeline = pipeline ∧ r.entry.isActive := by
  have hmem : r.entry ∈ rs.map (·.entry) := List.mem_map_of_mem hr
  rw [entries_of_mapM_read h, List.mem_filter] at hmem
  simpa using hmem

theorem ids_of_readActive {window : Value} {now : Instant} {pipeline : Int} {s : Store} {rs : List Reading}
    (hs : s.IsSound) (h : readActive window now pipeline s = .ok rs) : (rs.map (·.entry.id)).Pairwise (· < ·) := by
  have hids : rs.map (·.entry.id) = (rs.map (·.entry)).map (·.id) := by rw [List.map_map]; rfl
  rw [hids, entries_of_mapM_read h]
  exact hs.entryIds.sublist (List.filter_sublist.map _)

theorem leads_refresh {window pipeline : Value} {now : Instant} {s : Store} (hs : s.IsSound) :
    (refresh window pipeline now).Leads s fun _ s' => s.Steps .quiet 0 s' := by
  unfold refresh
  apply leads_reading_bind (by simp)
  intro p _
  apply leads_reading_bind (by simp)
  intro readings hreadings
  have held : ∀ r ∈ readings, s.Holds r.entry := by
    intro r hr
    obtain ⟨hmem, -, hactive⟩ := mem_of_readActive hreadings hr
    exact ⟨hmem, hactive⟩
  rw [leads_bind, leads_modify]
  exact steps_remembering hs (ids_of_readActive hs hreadings) held

theorem exists_stagesInOrder {s : Store} (hs : s.IsSound) (pipeline : Int) :
    ∃ stages, stagesInOrder pipeline s = .ok stages := by
  have horders : ∀ order ∈ (s.stagesOf pipeline).map (·.order), order.isNumber := by
    simp only [List.forall_mem_map]
    exact fun stage hstage => hs.orders stage (Store.mem_of_mem_stagesOf hstage).1
  obtain ⟨orders, h⟩ := Value.exists_sort horders
  unfold stagesInOrder
  dsimp only
  rw [h]
  exact ⟨_, rfl⟩

end HealthSummary

end StageGate
