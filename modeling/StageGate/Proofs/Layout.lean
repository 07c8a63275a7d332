import StageGate.Proofs.Intake

/-!
This module contains that documents of stages and of pipelines are stored or refused. An order that is an integer is
the number behind the orders before it or is refused, so that a stage always finds a seat of its own.
-/

namespace StageGate

namespace Value

/-- Neither a float nor a decimal number. -/
def isExact : Value → Bool
  | .float _ | .decimal _ => false
  | _ => true

variable {v : Value} {n : Int}

theorem whole?_of_same (h : v.same (.int n)) (hexact : v.isExact) : v.whole? = some n := by
  rw [same_int_iff] at h
  cases v with
  | int m =>
    rw [stands_int] at h
    rw [whole?, h]
  | bool b =>
    rw [stands_bool] at h
    rw [whole?, h]
  | float | decimal => cases hexact
  | _ => simp [Stands, magnitude?] at h

theorem number_of_whole? (h : v.whole? = some n) (hn : Column.checkInt n = .ok ()) : Column.number v = .ok (.int n) := by
  cases v with
  | int m =>
    cases h
    simp [Column.number, hn, bind, Except.bind, pure, Except.pure]
  | bool b =>
    cases h
    rfl
  | _ => cases h

theorem isNumber_of_whole? (h : v.whole? = some n) : v.isNumber := by
  cases v with
  | int m => exact isNumber_int m
  | bool b => cases b <;> rfl
  | _ => cases h

end Value

namespace Pipeline

variable {Q : Breakdown → Prop}

theorem risks_checkStageValues {path : String} {deadline limit : Value} :
    Risks Q (checkStageValues path deadline limit) := by
  unfold checkStageValues
  split
  . exact ends_error.mpr trivial
  . split
    . exact ends_error.mpr trivial
    . exact ends_ok ()

theorem exists_areDistinct {vs : List Value} (h : ∀ v ∈ vs, v.isKey) : ∃ b, areDistinct vs = .ok b := by
  induction vs with
  | nil => exact ⟨true, rfl⟩
  | cons v vs ih =>
    rw [List.forall_mem_cons] at h
    obtain ⟨b, hb⟩ := ih h.2
    unfold areDistinct
    rw [h.1, hb]
    exact ⟨_, rfl⟩

theorem exists_isContiguous {vs : List Value} (h : ∀ v ∈ vs, v.whole?.isSome) : ∃ b, isContiguous vs = .ok b := by
  unfold isContiguous
  split
  . exact ⟨true, rfl⟩
  . next v vs =>
    obtain ⟨first, hfirst⟩ := Option.isSome_iff_exists.mp (h v (by simp))
    rw [hfirst]
    exact ⟨_, rfl⟩

/-- A shape of which all orders are integers is valid or refused. -/
theorem risks_validateShape {label : Value} {stages : List StageShape}
    (h : ∀ stage ∈ stages, stage.order.whole?.isSome) : Risks Q (validateShape label stages) := by
  have hwhole : ∀ v ∈ stages.map (·.order), v.whole?.isSome := by simpa using h
  have hnumber : ∀ v ∈ stages.map (·.order), v.isNumber := by
    intro v hv
    obtain ⟨n, hn⟩ := Option.isSome_iff_exists.mp (hwhole v hv)
    exact Value.isNumber_of_whole? hn
  obtain ⟨orders, horders⟩ := Value.exists_sort hnumber
  have hsorted : ∀ v ∈ orders, v.whole?.isSome := fun v hv => hwhole v ((Value.sort_perm horders).mem_iff.mp hv)
  obtain ⟨distinct, hdistinct⟩ := exists_areDistinct fun v hv => by
    obtain ⟨n, hn⟩ := Option.isSome_iff_exists.mp (hsorted v hv)
    exact (Value.stands_of_whole? hn).isKey
  obtain ⟨contiguous, hcontiguous⟩ := exists_isContiguous hsorted
  have hrefuse {reason : String} {rest : Unit → Except Fault Unit} :
      Risks Q (validateShape.refuse label reason >>= rest) := ends_error.mpr trivial
  have hchecks : Risks Q (stages.forM StageShape.check) := ends_forM fun stage _ => risks_checkStageValues
  unfold validateShape
  rw [horders]
  dsimp only
  split
  . exact hrefuse
  refine ends_bind.mpr ⟨ends_ok _, ?_⟩
  rintro _ ⟨⟩
  rw [hdistinct]
  refine ends_bind.mpr ⟨ends_ok _, ?_⟩
  rintro _ ⟨⟩
  split
  . exact hrefuse
  rw [hcontiguous]
  refine ends_bind.mpr ⟨ends_ok _, ?_⟩
  rintro _ ⟨⟩
  split
  . exact hrefuse
  . exact hchecks

end Pipeline

namespace Configuration

open Transaction

/-! ## Stages -/

/-- A value that stands for a list of objects of which `P` holds, not too long to be counted. -/
def Lists (P : Fields → Prop) (v : Value) : Prop :=
  ∃ items, v.items = .ok items ∧ items.length < Column.wordLimit ∧ ∀ item ∈ items, ∃ fields, item = .object fields ∧ P fields

/-- What the members of a stage have to be, where they are given. -/
structure IsStageDocument (fields : Fields) : Prop where
  named : ∀ name, nameOf? fields longestName = some name → Column.checkText name = .ok ()
  exact : ∀ v, fields.get? "order" = some v → v.isExact
  deadline : ∀ n, deadlineOf fields = .int n → Column.checkInt n = .ok ()
  limit : ∀ n, Fields.getD fields "wip_limit" .null = .int n → Column.checkInt n = .ok ()
  entry : (Fields.getD fields "entry_criteria" .null).IsWritable
  exit : (Fields.getD fields "exit_criteria" .null).IsWritable
  criteria : Lists IsCriterionDocument (Fields.getD fields "criteria" .null)

section

variable {Q : Breakdown → Prop} {a : Author} {s s' : Store} {fields : Fields} {pipeline : Int} {orders : List Value}
  {order : Value} {stage : Stage} {n : Int}

theorem risks_requireOrder {next : Value} : Risks Q (requireOrder fields next) := by
  unfold requireOrder
  dsimp only
  split
  . exact ends_ok _
  . exact ends_error.mpr trivial

theorem getD_of_requireOrder {next : Value} (h : requireOrder fields next = .ok order) :
    order = Fields.getD fields "order" next := by
  unfold requireOrder at h
  dsimp only at h
  split at h
  . cases h
    rfl
  . cases h

theorem IsStageDocument.whole? (h : IsStageDocument fields) (hgiven : requireOrder fields (.int n) = .ok order) :
    order.whole? = some n := by
  apply Value.whole?_of_same (same_of_requireOrder hgiven)
  rw [getD_of_requireOrder hgiven]
  exact Fields.getD_of (P := fun v => v.isExact) h.exact rfl

theorem exists_number_of_isDeadline {v : Value} (h : v.isDeadline) (hfits : ∀ n, v = .int n → Column.checkInt n = .ok ()) :
    ∃ kept, Column.number v = .ok kept := by
  cases v with
  | int n => exact ⟨_, Value.number_of_whole? rfl (hfits n rfl)⟩
  | _ => cases h

theorem exists_number_of_isLimit {v : Value} (h : v.isLimit) (hfits : ∀ n, v = .int n → Column.checkInt n = .ok ()) :
    ∃ kept, Column.number v = .ok kept := by
  cases v with
  | null => exact ⟨_, rfl⟩
  | int n => exact ⟨_, Value.number_of_whole? rfl (hfits n rfl)⟩
  | _ => cases h

theorem risks_readStage (h : IsStageDocument fields) (hwhole : order.whole? = some n) (hn : Column.checkInt n = .ok ()) :
    Risks Q (readStage pipeline order fields s) := by
  unfold readStage
  refine ends_bind.mpr ⟨Pipeline.risks_checkStageValues, fun _ hvalues => ?_⟩
  obtain ⟨hdeadline, hlimit⟩ := of_checkStageValues hvalues
  refine ends_bind.mpr ⟨risks_requireName, fun name hname => ?_⟩
  refine ends_bind.mpr ⟨risks_of_ok (h.named name (nameOf?_of_requireName hname)), fun _ _ => ?_⟩
  refine ends_bind.mpr ⟨risks_of_ok (Value.number_of_whole? hwhole hn), fun _ _ => ?_⟩
  refine ends_bind.mpr ⟨risks_of_exists (exists_number_of_isDeadline hdeadline h.deadline), fun _ _ => ?_⟩
  refine ends_bind.mpr ⟨risks_of_exists h.entry, fun _ _ => ?_⟩
  refine ends_bind.mpr ⟨risks_of_exists h.exit, fun _ _ => ?_⟩
  exact ends_bind.mpr ⟨risks_of_exists (exists_number_of_isLimit hlimit h.limit), fun _ _ => ends_ok _⟩

theorem nextOrder_of_whole {orders : List Value}
    (h : ∀ (k : Nat) v, orders[k]? = some v → v.whole? = some ((k : Int) + 1)) :
    nextOrder orders = .ok (.int (orders.length + 1)) := by
  unfold nextOrder
  cases hlast : orders.getLast? with
  | none =>
    rw [List.getLast?_eq_none_iff.mp hlast]
    rfl
  | some last =>
    have hpos : 0 < orders.length := List.length_pos_of_mem (List.mem_of_getLast? hlast)
    rw [List.getLast?_eq_getElem?] at hlast
    have hwhole := h _ last hlast
    have hlength : ((orders.length - 1 : Nat) : Int) + 1 = orders.length := by omega
    rw [hlength] at hwhole
    exact Value.succ_of_whole? hwhole

/-- The orders of the stages of a pipeline go on with the next number, and it fits. -/
structure GoesOn (s : Store) (pipeline : Int) (orders : List Value) : Prop where
  counted : Value.AreCounted ((s.rowsOf pipeline).map (·.order))
  next : nextOrder orders = .ok (.int ((s.rowsOf pipeline).length + 1))
  fits : (s.rowsOf pipeline).length + 1 < Column.wordLimit

namespace GoesOn

theorem checkInt (h : GoesOn s pipeline orders) : Column.checkInt ((s.rowsOf pipeline).length + 1) = .ok () := by
  have := h.fits
  rw [Column.checkInt_eq_ok]
  omega

theorem seats (h : GoesOn s pipeline orders) (hpipeline : stage.pipeline = pipeline)
    (horder : stage.order = .int ((s.rowsOf pipeline).length + 1)) : s.seats stage := by
  have hstands : stage.order.Stands ((s.rowsOf pipeline).length + 1) := by
    rw [horder]
    exact Value.stands_int.mpr rfl
  unfold Store.seats
  rw [List.all_eq_true]
  intro x hx
  by_cases hsame : x.pipeline = stage.pipeline
  . have hrow : x ∈ s.rowsOf pipeline := Store.mem_rowsOf.mpr ⟨hx, hsame.trans hpipeline⟩
    obtain ⟨k, hk⟩ := List.getElem?_of_mem hrow
    have hlt := (List.getElem?_eq_some_iff.mp hk).1
    have hplace := h.counted k x.order (by rw [List.getElem?_map, hk]; rfl)
    have hapart := hplace.stands.not_same hstands (by omega)
    simp [hsame, hapart]
  . simp [hsame]

end GoesOn

section

variable (ha : ∃ actor, signature a.name = .ok actor)

include ha

theorem risks_addStageAfter (h : GoesOn s pipeline orders) (hs : s.HasStorable) (hdoc : IsStageDocument fields) :
    (addStageAfter a pipeline orders (.object fields)).Risks Q s := by
  unfold addStageAfter
  apply risks_lift_bind (ends_ok fields)
  rintro _ ⟨⟩
  apply risks_lift_bind (risks_of_ok h.next)
  intro next hnext
  rw [h.next, Except.ok.injEq] at hnext
  subst hnext
  apply risks_lift_bind risks_requireOrder
  intro order horder
  have hwhole := hdoc.whole? horder
  apply risks_reading_bind (risks_readStage hdoc hwhole h.checkInt)
  intro stage hstage
  obtain ⟨hid, hpipeline, -, -, hkept⟩ := of_readStage hstage
  have hseat : s.seats stage := by
    apply h.seats hpipeline
    rw [Value.number_of_whole? hwhole h.checkInt, Except.ok.injEq] at hkept
    exact hkept.symm
  -- No criterion belongs to the stage yet, since it is new.
  have hnone : s.criteriaOf stage.id = [] := by
    apply hs.criteriaOf_eq_nil
    intro hmem
    rw [hid] at hmem
    exact absurd (Store.lt_nextId hmem) (Int.lt_irrefl _)
  apply risks_bind
  . unfold Transaction.addStage
    apply risks_get_bind
    exact risks_bind (risks_demand fun hfull => absurd hseat hfull) fun _ _ _ => risks_modify
  intro _ s₁ hadd
  simp only [Transaction.addStage, Transaction.bind_eq_ok, get_eq_ok, demand_eq_ok, modify_eq_ok] at hadd
  obtain ⟨_, _, ⟨rfl, rfl⟩, _, _, ⟨-, rfl⟩, rfl⟩ := hadd
  apply risks_bind (risks_record ha)
  intro _ s₂ hrecord
  obtain ⟨actor, -, rfl⟩ := record_eq_ok.mp hrecord
  obtain ⟨items, hitems, hfew, hcriteria⟩ := hdoc.criteria
  apply risks_lift_bind (risks_of_ok hitems)
  intro _ hgiven
  rw [hitems, Except.ok.injEq] at hgiven
  subst hgiven
  refine risks_bind (risks_addCriteria ha ?_ hcriteria ?_) fun _ _ _ => risks_pure _
  . simp [Store.addAudit]
  . change (s.criteriaOf stage.id).length + items.length ≤ Column.wordLimit
    rw [hnone, List.length_nil]
    omega

omit ha in
theorem order_of_addStageAfter (h : addStageAfter a pipeline orders (.object fields) s = .ok ((stage, order), s')) :
    ∃ next, nextOrder orders = .ok next ∧ requireOrder fields next = .ok order := by
  simp only [addStageAfter, Transaction.bind_eq_ok, lift_eq_ok, reading_eq_ok] at h
  obtain ⟨_, _, ⟨hfields, rfl⟩, next, _, ⟨hnext, rfl⟩, given, _, ⟨hgiven, rfl⟩, row, _, ⟨-, rfl⟩, _, s₁, -, _, s₂,
    -, items, _, ⟨-, rfl⟩, _, s₃, -, hpair⟩ := h
  cases hfields
  simp only [pure_eq_ok, Prod.mk.injEq] at hpair
  obtain ⟨⟨rfl, rfl⟩, rfl⟩ := hpair
  exact ⟨next, hnext, hgiven⟩

omit ha in
theorem counted_of_addStageAfter {data : Value} (h : GoesOn s pipeline orders) (hwhole : order.whole? = some n)
    (hn : n = (s.rowsOf pipeline).length + 1)
    (hdone : addStageAfter a pipeline orders data s = .ok ((stage, order), s')) :
    Value.AreCounted ((s'.rowsOf pipeline).map (·.order)) ∧
      (s'.rowsOf pipeline).length = (s.rowsOf pipeline).length + 1 := by
  obtain ⟨⟨hpipeline, -, hkept⟩, -, hstages⟩ := of_addStageAfter hdone
  have hfits := h.checkInt
  rw [← hn] at hfits
  rw [Value.number_of_whole? hwhole hfits, Except.ok.injEq] at hkept
  rw [Store.rowsOf_append hstages, List.filter_cons_of_pos (by simpa using hpipeline), List.filter_nil]
  refine ⟨?_, by simp⟩
  rw [List.map_append]
  apply h.counted.concat
  dsimp only
  rw [← hkept, hn, List.length_map]
  exact .int h.fits

end

theorem goesOn_of_isCounted (hs : s.IsCounted) {pipeline : Int}
    (hfits : (s.rowsOf pipeline).length + 1 < Column.wordLimit) :
    GoesOn s pipeline ((s.stagesOf pipeline).map (·.order)) where
  counted := hs pipeline
  next := by
    rw [hs.stagesOf_eq, nextOrder_of_whole, List.length_map]
    intro k v hk
    have hlt := (List.getElem?_eq_some_iff.mp hk).1
    rw [List.length_map] at hlt
    exact (hs pipeline k v hk).whole? (by omega)
  fits := hfits

theorem risks_addStage (ha : ∃ actor, signature a.name = .ok actor) (hs : s.IsCounted) (hstorable : s.HasStorable)
    {p : Pipeline} (hfits : (s.rowsOf p.id).length + 1 < Column.wordLimit) (h : IsStageDocument fields) :
    (Configuration.addStage a p (.object fields)).Risks Q s := by
  unfold Configuration.addStage
  apply risks_get_bind
  exact risks_bind (risks_addStageAfter ha (goesOn_of_isCounted hs hfits) hstorable h) fun _ _ _ => risks_pure _

/-- The stages of a new pipeline so far, with the orders that they were given. -/
structure Lays (s : Store) (pipeline : Int) (added : List (Stage × Value)) : Prop where
  counted : Value.AreCounted ((s.rowsOf pipeline).map (·.order))
  all : (s.rowsOf pipeline).length = added.length
  whole : ∀ (k : Nat) x, added[k]? = some x → x.2.whole? = some ((k : Int) + 1)
  storable : s.HasStorable

namespace Lays

variable {added : List (Stage × Value)}

theorem none (hs : s.HasStorable) (h : s.rowsOf pipeline = []) : Lays s pipeline [] where
  counted := by
    rw [h]
    exact Value.areCounted_nil
  all := by
    rw [h]
    rfl
  whole := fun _ _ hx => by cases hx
  storable := hs

theorem goesOn (h : Lays s pipeline added) (hfits : added.length + 1 < Column.wordLimit) :
    GoesOn s pipeline (added.map (·.2)) where
  counted := h.counted
  next := by
    rw [h.all, nextOrder_of_whole, List.length_map]
    intro k v hk
    rw [List.getElem?_map, Option.map_eq_some_iff] at hk
    obtain ⟨x, hx, rfl⟩ := hk
    exact h.whole k x hx
  fits := by rw [h.all]; exact hfits

theorem concat (h : Lays s pipeline added) (hfits : added.length + 1 < Column.wordLimit) (hdoc : IsStageDocument fields)
    (hdone : addStageAfter a pipeline (added.map (·.2)) (.object fields) s = .ok ((stage, order), s')) :
    Lays s' pipeline (added ++ [(stage, order)]) := by
  have hgoes := h.goesOn hfits
  obtain ⟨next, hnext, hgiven⟩ := order_of_addStageAfter hdone
  rw [hgoes.next, Except.ok.injEq] at hnext
  subst hnext
  have hwhole := hdoc.whole? hgiven
  obtain ⟨hcounted, hlength⟩ := counted_of_addStageAfter hgoes hwhole rfl hdone
  refine ⟨hcounted, ?_, ?_, ?_⟩
  . rw [hlength, h.all, List.length_append, List.length_singleton]
  . intro k x hx
    rw [List.getElem?_append] at hx
    split at hx
    . exact h.whole k x hx
    . have hk : k = added.length := by
        have := (List.getElem?_eq_some_iff.mp hx).1
        rw [List.length_singleton] at this
        omega
      rw [hk, Nat.sub_self, List.getElem?_cons_zero, Option.some.injEq] at hx
      rw [← hx, hk, ← h.all]
      exact hwhole
  . have hclosed := closed_hasStorable [.stage, .criterion]
    exact hclosed.preserves_addStageAfter (by simp) (by simp) _ _ _ h.storable hdone

theorem addStages {all : List (Stage × Value)} {items : List Value} (h : Lays s pipeline added)
    (hfits : added.length + items.length < Column.wordLimit)
    (hdocs : ∀ item ∈ items, ∃ fields, item = .object fields ∧ IsStageDocument fields)
    (hdone : Configuration.addStages a pipeline added items s = .ok (all, s')) : Lays s' pipeline all := by
  induction items generalizing s added with
  | nil =>
    obtain ⟨rfl, rfl⟩ := pure_eq_ok.mp hdone
    exact h
  | cons item items ih =>
    rw [List.forall_mem_cons] at hdocs
    obtain ⟨⟨fields, rfl, hdoc⟩, hdocs⟩ := hdocs
    rw [List.length_cons] at hfits
    simp only [Configuration.addStages, Transaction.bind_eq_ok] at hdone
    obtain ⟨⟨stage, order⟩, s₁, hstage, hrest⟩ := hdone
    apply ih (h.concat (by omega) hdoc hstage) _ hdocs hrest
    rw [List.length_append, List.length_singleton]
    omega

end Lays

section

variable (ha : ∃ actor, signature a.name = .ok actor)

include ha

theorem risks_addStages {added : List (Stage × Value)} {items : List Value} (h : Lays s pipeline added)
    (hfits : added.length + items.length < Column.wordLimit)
    (hdocs : ∀ item ∈ items, ∃ fields, item = .object fields ∧ IsStageDocument fields) :
    (addStages a pipeline added items).Risks Q s := by
  induction items generalizing s added with
  | nil => exact risks_pure _
  | cons item items ih =>
    rw [List.forall_mem_cons] at hdocs
    obtain ⟨⟨fields, rfl, hdoc⟩, hdocs⟩ := hdocs
    rw [List.length_cons] at hfits
    unfold addStages
    apply risks_bind (risks_addStageAfter ha (h.goesOn (by omega)) h.storable hdoc)
    rintro ⟨stage, order⟩ s' hdone
    apply ih (h.concat (by omega) hdoc hdone) _ hdocs
    rw [List.length_append, List.length_singleton]
    omega

/-! ## Pipelines -/

/-- What the members of a pipeline have to be, where they are given. -/
structure IsPipelineDocument (fields : Fields) : Prop where
  named : ∀ name, nameOf? fields longestName = some name → Column.checkText name = .ok ()
  described : Column.checkText (description fields) = .ok ()
  stages : Lists IsStageDocument (Fields.getD fields "stages" .null)

theorem risks_createPipeline (hk : s.IsConsistent) (hs : s.HasStorable) (h : IsPipelineDocument fields) :
    (createPipeline a (.object fields)).Risks Q s := by
  unfold createPipeline
  apply risks_lift_bind (ends_ok fields)
  rintro _ ⟨⟩
  apply risks_reading_bind
  . unfold readPipeline
    refine ends_bind.mpr ⟨risks_requireName, fun name hname => ?_⟩
    exact ends_bind.mpr ⟨risks_checkTexts (h.named name (nameOf?_of_requireName hname)) h.described, fun _ _ => ends_ok _⟩
  intro p hp
  apply risks_bind risks_modify
  intro _ s₁ hadd
  obtain rfl := modify_eq_ok.mp hadd
  obtain ⟨items, hitems, hfew, hdocs⟩ := h.stages
  apply risks_lift_bind (risks_of_ok hitems)
  intro _ hgiven
  rw [hitems, Except.ok.injEq] at hgiven
  subst hgiven
  have hnone : s.rowsOf p.id = [] := by
    rw [id_of_readPipeline hp]
    exact hk.rowsOf_nextId
  have hlays : Lays { s with pipelines := s.pipelines ++ [p] } p.id [] := .none hs hnone
  have hroom : ([] : List (Stage × Value)).length + items.length < Column.wordLimit := by simpa using hfew
  apply risks_bind (risks_addStages ha hlays hroom hdocs)
  intro added s₂ hadded
  have hlaid := hlays.addStages hroom hdocs hadded
  have hrecord {s : Store} : Transaction.Risks Q (do
      recordCreation a .pipeline p.id p.id [("name", .text p.name), ("stages", .int added.length)]
      return p) s :=
    risks_bind (risks_record ha) fun _ _ _ => risks_pure _
  dsimp only
  split
  . apply risks_lift_bind
    . apply Pipeline.risks_validateShape
      intro shape hshape
      obtain ⟨x, hx, rfl⟩ := List.mem_map.mp hshape
      obtain ⟨k, hk⟩ := List.getElem?_of_mem hx
      exact Option.isSome_iff_exists.mpr ⟨_, hlaid.whole k x hk⟩
    . exact fun _ _ => hrecord
  . exact hrecord

end

end

end Configuration

end StageGate
