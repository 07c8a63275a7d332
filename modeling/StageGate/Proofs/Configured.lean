import Mathlib.Data.List.Induction
import StageGate.Proofs.Cache
import StageGate.Proofs.Consistency
import StageGate.Proofs.Counting
import StageGate.Proofs.Tables

/-!
This module contains that what services write of the configuration can be loaded. In every store that is reached,
the orders of a pipeline are the places in which its stages were created, so pipelines with stages are valid, and
the criteria of every stage can be made into checks.
-/

namespace StageGate

open Transaction Configuration Value

namespace Store

/-- The stages of a pipeline, in the order in which they were created. -/
def rowsOf (s : Store) (pipeline : Int) : List Stage :=
  s.stages.filter (·.pipeline = pipeline)

theorem mem_rowsOf {s : Store} {pipeline : Int} {stage : Stage} :
    stage ∈ s.rowsOf pipeline ↔ stage ∈ s.stages ∧ stage.pipeline = pipeline := by
  simp [rowsOf]

theorem rowsOf_append {s s' : Store} {added : List Stage} (h : s'.stages = s.stages ++ added) (pipeline : Int) :
    s'.rowsOf pipeline = s.rowsOf pipeline ++ added.filter (·.pipeline = pipeline) := by
  unfold rowsOf
  rw [h, List.filter_append]

/-- The orders of the stages of every pipeline are the places in which they were created. -/
def IsCounted (s : Store) : Prop :=
  ∀ pipeline, AreCounted ((s.rowsOf pipeline).map (·.order))

theorem isCounted_empty : empty.IsCounted :=
  fun _ => areCounted_nil

namespace IsCounted

variable {s s' : Store}

theorem congr (h : s.IsCounted) (hstages : s'.stages = s.stages) : s'.IsCounted := by
  unfold IsCounted rowsOf at *
  rwa [hstages]

theorem append (h : s.IsCounted) {added : List Stage} {pipeline : Int} (hstages : s'.stages = s.stages ++ added)
    (hadded : ∀ stage ∈ added, stage.pipeline = pipeline)
    (hcounted : AreCounted ((s.rowsOf pipeline ++ added).map (·.order))) : s'.IsCounted := by
  intro p
  rw [rowsOf_append hstages]
  by_cases hp : p = pipeline
  . rw [hp, List.filter_eq_self.mpr (by simpa using hadded)]
    exact hcounted
  . have hnone : added.filter (·.pipeline = p) = [] := by
      rw [List.filter_eq_nil_iff]
      intro stage hstage
      rw [hadded stage hstage]
      simpa using Ne.symm hp
    rw [hnone, List.append_nil]
    exact h p

theorem stagesOf_eq (h : s.IsCounted) (pipeline : Int) : s.stagesOf pipeline = s.rowsOf pipeline := by
  apply Listing.inOrder_of_pairwise
  have := (h pipeline).pairwise
  rw [List.pairwise_map] at this
  apply this.imp
  rintro x y ⟨m, n, hlt, hx, hy⟩
  rw [hx.stands.atMost_iff hy.stands]
  omega

theorem validate (h : s.IsCounted) (hs : s.IsSound) (hc : s.IsConsistent) (p : Pipeline)
    (hsome : s.rowsOf p.id ≠ []) : s.validate p = .ok () := by
  unfold Store.validate
  rw [h.stagesOf_eq]
  apply Pipeline.validateShape_of_areCounted
  . simpa using hsome
  . rw [List.map_map]
    exact h p.id
  . intro shape hshape
    rw [List.mem_map] at hshape
    obtain ⟨stage, hstage, rfl⟩ := hshape
    have hmem := (mem_rowsOf.mp hstage).1
    exact ⟨hc.deadlines stage hmem, hs.limits stage hmem⟩

end IsCounted

end Store

/-! ## Writing stages -/

theorem closed_stages (stages : List Stage) {tables : List Table} (h : .stage ∉ tables) :
    Closed (·.stages = stages) tables where
  entries := fun _ _ _ h => h
  leads := fun _ _ _ h => h
  pipelines := fun _ _ _ h => h
  stages := fun hstage => absurd hstage h
  added := fun _ _ _ _ _ h => h
  updated := fun _ _ _ _ _ _ h => h
  flags := fun _ _ _ h => h

namespace Configuration

variable {a : Author} {pipeline : Int} {s s' : Store}

/-- What is known of a stage that is written behind others, and of the order that it was given. -/
structure IsNextStage (pipeline : Int) (orders : List Value) (stage : Stage) (order : Value) : Prop where
  pipeline : stage.pipeline = pipeline
  follows : ∃ next, nextOrder orders = .ok next ∧ order.same next
  kept : Column.number order = .ok stage.order

theorem of_addStageAfter {orders : List Value} {data : Value} {stage : Stage} {order : Value}
    (h : addStageAfter a pipeline orders data s = .ok ((stage, order), s')) :
    IsNextStage pipeline orders stage order ∧ s.seats stage ∧ s'.stages = s.stages ++ [stage] := by
  simp only [addStageAfter, Transaction.bind_eq_ok, lift_eq_ok, reading_eq_ok] at h
  obtain ⟨fields, _, ⟨-, rfl⟩, next, _, ⟨hnext, rfl⟩, given, _, ⟨hgiven, rfl⟩, row, _, ⟨hrow, rfl⟩, _, s₁, hadd, _, s₂,
    hrecord, items, _, ⟨-, rfl⟩, _, s₃, hcriteria, hpair⟩ := h
  simp only [Transaction.addStage, Transaction.bind_eq_ok, get_eq_ok, demand_eq_ok, modify_eq_ok] at hadd
  obtain ⟨_, _, ⟨rfl, rfl⟩, _, _, ⟨hseat, rfl⟩, rfl⟩ := hadd
  simp only [pure_eq_ok, Prod.mk.injEq] at hpair
  obtain ⟨⟨rfl, rfl⟩, rfl⟩ := hpair
  obtain ⟨-, hpipeline, -, -, hkept⟩ := of_readStage hrow
  refine ⟨⟨hpipeline, ⟨next, hnext, same_of_requireOrder hgiven⟩, hkept⟩, hseat, ?_⟩
  -- What is written behind the stage are criteria and rows of the audit.
  have hrecorded := preserves_record (I := (·.stages = s.stages ++ [row])) (fun _ _ h => h) _ _ _ rfl hrecord
  have hclosed : Closed (·.stages = s.stages ++ [row]) [.criterion] := closed_stages _ (by decide)
  have home : row.id ∈ s₂.stages.map (·.id) := by
    rw [hrecorded]
    simp
  exact (hclosed.preserves_addCriteria (by decide) _ _ _ ⟨home, hrecorded⟩ hcriteria).2

theorem of_addStages {added all : List (Stage × Value)} {items : List Value}
    (h : addStages a pipeline added items s = .ok (all, s')) : ∃ new, all = added ++ new ∧
      s'.stages = s.stages ++ new.map (·.1) ∧
      (∀ x ∈ new, x.1.pipeline = pipeline ∧ Column.number x.2 = .ok x.1.order) ∧
      (Follows (added.map (·.2)) → Follows (all.map (·.2))) := by
  -- By induction on the documents; each of them is given its order behind the ones before.
  induction items generalizing s added with
  | nil =>
    obtain ⟨rfl, rfl⟩ := pure_eq_ok.mp h
    exact ⟨[], by simp, by simp, by simp, id⟩
  | cons data rest ih =>
    simp only [addStages, Transaction.bind_eq_ok] at h
    obtain ⟨⟨stage, order⟩, s₁, hstage, hrest⟩ := h
    obtain ⟨⟨hpipeline, ⟨next, hnext, hsame⟩, hkept⟩, -, hstages⟩ := of_addStageAfter hstage
    obtain ⟨new, rfl, hnew, hrows, hfollows⟩ := ih hrest
    refine ⟨(stage, order) :: new, by simp, by simp [hnew, hstages], ?_, ?_⟩
    . rw [List.forall_mem_cons]
      exact ⟨⟨hpipeline, hkept⟩, hrows⟩
    . intro hbefore
      apply hfollows
      rw [List.map_append]
      exact .concat hbefore hnext hsame

theorem areCounted_of_follows {added : List (Stage × Value)} {label : Value}
    (hkept : ∀ x ∈ added, Column.number x.2 = .ok x.1.order) (hfollows : Follows (added.map (·.2)))
    (hvalid : Pipeline.validateShape label (shapesOf added) = .ok ()) : AreCounted (added.map (·.1.order)) := by
  have horders : (shapesOf added).map (·.order) = added.map (·.2) := by
    unfold shapesOf
    rw [List.map_map]
    rfl
  obtain ⟨sorted, hsort, hrun⟩ := Pipeline.of_validateShape hvalid
  rw [horders] at hsort
  have hnumber : ∀ v ∈ added.map (·.2), ∃ kept, Column.number v = .ok kept := by
    intro v hv
    rw [List.mem_map] at hv
    obtain ⟨x, hx, rfl⟩ := hv
    exact ⟨_, hkept x hx⟩
  intro k v hv
  rw [List.getElem?_map, Option.map_eq_some_iff] at hv
  obtain ⟨x, hx, rfl⟩ := hv
  have hgiven : (added.map (·.2))[k]? = some x.2 := by rw [List.getElem?_map, hx, Option.map_some]
  apply hfollows.isPlace hnumber _ hgiven (hkept x (List.mem_of_getElem? hx))
  intro k v hv
  exact hfollows.stands hnumber hsort hrun hv

theorem id_of_readPipeline {fields : Fields} {p : Pipeline} (h : readPipeline a fields s = .ok p) :
    p.id = Store.nextId (s.pipelines.map (·.id)) := by
  simp only [readPipeline, bind_eq_ok, pure, Except.pure, Except.ok.injEq] at h
  obtain ⟨_, -, _, -, rfl⟩ := h
  rfl

theorem of_createPipeline {data : Value} {p : Pipeline} (h : createPipeline a data s = .ok (p, s')) :
    ∃ added : List Stage, s'.stages = s.stages ++ added ∧
      (∀ stage ∈ added, stage.pipeline = Store.nextId (s.pipelines.map (·.id))) ∧
      AreCounted (added.map (·.order)) := by
  simp only [createPipeline, addPipeline, Transaction.bind_eq_ok, lift_eq_ok, reading_eq_ok, modify_eq_ok] at h
  obtain ⟨fields, _, ⟨-, rfl⟩, row, _, ⟨hrow, rfl⟩, _, s₁, rfl, items, _, ⟨-, rfl⟩, added, s₂, hadded, h⟩ := h
  obtain ⟨new, hall, hstages, hrows, hfollows⟩ := of_addStages hadded
  rw [List.nil_append] at hall
  subst hall
  refine ⟨added.map (·.1), ?_, ?_, ?_⟩
  . rw [← hstages]
    have hrecord : Preserves (do
        recordCreation a .pipeline row.id row.id [("name", .text row.name), ("stages", .int added.length)]
        return row) (·.stages = s₂.stages) :=
      preserves_bind (preserves_record fun _ _ h => h) fun _ => preserves_pure row
    split at h
    . rw [Transaction.bind_eq_ok] at h
      obtain ⟨_, s₃, hvalid, h⟩ := h
      rw [lift_eq_ok] at hvalid
      exact hrecord s₃ p s' (by rw [hvalid.2]) h
    . exact hrecord s₂ p s' rfl h
  . intro stage hstage
    rw [List.mem_map] at hstage
    obtain ⟨x, hx, rfl⟩ := hstage
    rw [(hrows x hx).1, id_of_readPipeline hrow]
  . split at h
    . rw [Transaction.bind_eq_ok] at h
      obtain ⟨_, _, hvalid, -⟩ := h
      rw [lift_eq_ok] at hvalid
      rw [List.map_map]
      exact areCounted_of_follows (fun x hx => (hrows x hx).2) (hfollows .nil) hvalid.1
    . next hempty =>
      have : added = [] := by simpa using hempty
      rw [this]
      exact areCounted_nil

theorem of_addStage {p : Pipeline} {data : Value} {stage : Stage}
    (h : Configuration.addStage a p data s = .ok (stage, s')) : ∃ order,
      IsNextStage p.id ((s.stagesOf p.id).map (·.order)) stage order ∧ s.seats stage ∧
        s'.stages = s.stages ++ [stage] := by
  simp only [Configuration.addStage, Transaction.bind_eq_ok, get_eq_ok, pure_eq_ok] at h
  obtain ⟨_, _, ⟨rfl, rfl⟩, ⟨row, order⟩, _, hadded, rfl, rfl⟩ := h
  exact ⟨order, of_addStageAfter hadded⟩

end Configuration

/-! ## What is written can be loaded -/

/-- No stage belongs to a pipeline that is new. -/
theorem Store.IsConsistent.rowsOf_nextId {s : Store} (h : s.IsConsistent) :
    s.rowsOf (nextId (s.pipelines.map (·.id))) = [] := by
  rw [List.eq_nil_iff_forall_not_mem]
  intro stage hstage
  rw [mem_rowsOf] at hstage
  have hhome := h.homes stage hstage.1
  rw [hstage.2] at hhome
  exact absurd (lt_nextId hhome) (Int.lt_irrefl _)

namespace Store.IsCounted

variable {a : Author} {s s' : Store}

theorem createPipeline {data : Value} {p : Pipeline} (hc : s.IsConsistent) (h : s.IsCounted)
    (hdone : Configuration.createPipeline a data s = .ok (p, s')) : s'.IsCounted := by
  obtain ⟨added, hstages, hadded, hcounted⟩ := of_createPipeline hdone
  apply h.append hstages hadded
  rwa [hc.rowsOf_nextId, List.nil_append]

theorem addStage {data : Value} {p : Pipeline} {stage : Stage} (h : s.IsCounted)
    (hdone : Configuration.addStage a p data s = .ok (stage, s')) : s'.IsCounted := by
  obtain ⟨order, ⟨hpipeline, ⟨next, hnext, hsame⟩, hkept⟩, hseat, hstages⟩ := of_addStage hdone
  rw [h.stagesOf_eq] at hnext
  apply h.append hstages
  . intro x hx
    rw [List.mem_singleton] at hx
    rw [hx, hpipeline]
  . rw [List.map_append]
    apply (h p.id).concat
    apply (h p.id).isPlace_next hnext hsame hkept
    intro v hv
    rw [List.mem_map] at hv
    obtain ⟨x, hx, rfl⟩ := hv
    rw [mem_rowsOf] at hx
    unfold seats at hseat
    rw [List.all_eq_true] at hseat
    have := hseat x hx.1
    simpa [hx.2, hpipeline] using this

theorem writes {env : Environment} {k : Command} (hc : s.IsConsistent) (h : s.IsCounted)
    (hw : k.Writes env s s') : s'.IsCounted := by
  have hframe : .stage ∉ k.tables → s'.IsCounted := fun hk =>
    h.congr (hw.preserves (closed_stages s.stages hk) rfl)
  cases hw with
  | createPipeline done => exact createPipeline hc h done
  | addStage _ done => exact addStage h done
  | entries effect steps => exact h.congr (steps.stages_eq effect)
  | _ => exact hframe (by simp [Command.tables])

end Store.IsCounted

theorem closed_hasLoadable (tables : List Table) : Closed Store.HasLoadable tables where
  entries := fun _ _ _ h => h
  leads := fun _ _ _ h => h
  pipelines := fun _ _ _ h => h
  stages := fun _ _ _ h => h
  added := by
    intro _ s stage c hnew h x hx
    rw [List.mem_append, List.mem_singleton] at hx
    rcases hx with hx | rfl
    . exact h x hx
    . exact hnew.loadable
  updated := by
    intro _ s c new hc hupdate h x hx
    rw [List.mem_map] at hx
    obtain ⟨y, hy, rfl⟩ := hx
    split
    . exact hupdate.loadable (h c hc)
    . exact h y hy
  flags := fun _ _ _ h => h

namespace Service

theorem isCounted_reached (ts : List Turn) : (reached ts).store.IsCounted := by
  induction ts using List.reverseRecOn with
  | nil => exact Store.isCounted_empty
  | append_singleton ts t ih =>
    rw [reached_concat]
    rcases writes_of_after (isSound_reached ts) t with hsame | hwrites
    . rwa [hsame]
    . exact ih.writes (isConsistent_reached ts) hwrites

theorem hasLoadable_reached (ts : List Turn) : (reached ts).store.HasLoadable := by
  induction ts using List.reverseRecOn with
  | nil => simp [Store.HasLoadable, reached, run, empty, Store.empty]
  | append_singleton ts t ih =>
    rw [reached_concat]
    exact preserved_of_after (isSound_reached ts) t (closed_hasLoadable _) ih

/--
What services have written can be loaded, whatever documents it was written from. The orders of the stages of a
pipeline are the numbers from one on, in the order in which the stages were created; a pipeline with stages is
valid; the criteria of every stage can be made into checks; and a criterion carries a rule that can be read if
its kind needs one, and none otherwise.
-/
theorem reached_configuration_loads (ts : List Turn) :
    let s := reached ts
    (∀ pipeline (i : Nat) stage, (s.store.rowsOf pipeline)[i]? = some stage → stage.order.same (.int (i + 1))) ∧
      (∀ p ∈ s.store.pipelines, s.store.rowsOf p.id ≠ [] → s.store.validate p = .ok ()) ∧
      (∀ stage ∈ s.store.stages, ∃ checks, (Operation.loadChecks stage.id s).1 = .ok checks) ∧
      ∀ c ∈ s.store.criteria, c.IsLoadable := by
  have hcounted := isCounted_reached ts
  have hloadable := hasLoadable_reached ts
  refine ⟨?_, ?_, ?_, hloadable⟩
  . intro pipeline i stage hstage
    have horder : ((((reached ts).store.rowsOf pipeline)).map (·.order))[i]? = some stage.order := by
      rw [List.getElem?_map, hstage, Option.map_some]
    rw [same_int_iff]
    exact (hcounted pipeline i _ horder).stands
  . intro p _ hsome
    exact hcounted.validate (isSound_reached ts) (isConsistent_reached ts) p hsome
  . intro stage _
    rw [(Operation.loadChecks_of_isTrusty (isTrusty_reached ts) stage.id).1]
    exact hloadable.exists_compileAll stage.id

end Service

end StageGate
