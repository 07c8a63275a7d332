import StageGate.Proofs.Served

/-!
This module contains what documents of the configuration have to be so that they are stored or refused. Texts have
to be such as can be stored and numbers such as fit, rules must not have a list or an object where a word belongs,
and stages and criteria come in lists of objects.
-/

namespace StageGate

theorem Fields.getD_of {P : Value → Prop} {fields : Fields} {key : String} {fallback : Value}
    (h : ∀ v, fields.get? key = some v → P v) (hf : P fallback) : P (fields.getD key fallback) := by
  unfold getD
  cases hv : fields.get? key with
  | none => exact hf
  | some v => exact h v hv

/-! ## Rules -/

namespace Rule

/-- A value of which no node has a list or an object where a word belongs. -/
inductive HasWords : Value → Prop where
  | other {v : Value} (other : ∀ fields, v ≠ .object fields) : HasWords v
  | node {fields : Fields} (words : ∀ key ∈ ["domain", "type", "operator"], ∀ w, fields.get? key = some w →
        w.isTrue → w.isKey)
      (children : ∀ key ∈ ["children", "rules"], ∀ items, fields.get? key = some (.list items) →
        ∀ item ∈ items, HasWords item) : HasWords (.object fields)

variable {Q : Breakdown → Prop} {path : String} {fields : Fields}

theorem risks_fault {α : Type} {reason : String} : Risks Q (fault path reason : Except Fault α) :=
  ends_error.mpr trivial

/-- A value that can be turned down in the place of a word. -/
def CanBeRefused (w : Value) : Prop :=
  w.isWritable ∧ (w.isTrue → w.isKey)

theorem canBeRefused_null : CanBeRefused .null :=
  ⟨rfl, fun _ => rfl⟩

theorem isWritable_of_get? {key : String} {w : Value} (h : (Value.object fields).isWritable)
    (hget : fields.get? key = some w) : w.isWritable :=
  Value.below_of_get? h hget

theorem risks_readName {α : Type} {key : String} {ofName? : String → Option α} {word : Value} (h : CanBeRefused word) :
    Risks Q (readName key path ofName? word) := by
  unfold readName
  split
  . exact risks_fault
  . next htrue =>
    split
    . split
      . exact ends_ok _
      . exact risks_fault
    . unfold unknownName Value.printed
      rw [if_pos (h.2 (by simpa using htrue)), if_pos h.1]
      exact risks_fault

theorem risks_readLeaf (h : ∀ key ∈ ["domain", "type", "operator"], ∀ w, fields.get? key = some w → w.isTrue → w.isKey)
    (hw : (Value.object fields).isWritable) : Risks Q (readLeaf path fields) := by
  have hword : ∀ key ∈ ["domain", "type", "operator"], ∀ fallback : Value, CanBeRefused fallback →
      CanBeRefused (fields.getD key fallback) := by
    intro key hkey fallback hfallback
    exact Fields.getD_of (P := CanBeRefused) (fun w hget => ⟨isWritable_of_get? hw hget, h key hkey w hget⟩) hfallback
  have hnull := canBeRefused_null
  unfold readLeaf
  refine ends_bind.mpr ⟨risks_readName (hword "domain" (by simp) _ (hword "type" (by simp) _ hnull)), fun _ _ => ?_⟩
  refine ends_bind.mpr ⟨?_, fun _ _ => ?_⟩
  . unfold readField
    split
    . dsimp only
      split
      . exact risks_fault
      . exact ends_ok _
    . exact risks_fault
  refine ends_bind.mpr ⟨risks_readName (hword "operator" (by simp) _ hnull), fun _ _ => ?_⟩
  refine ends_bind.mpr ⟨?_, fun _ _ => ends_ok _⟩
  unfold readOperand
  dsimp only
  split
  . exact risks_fault
  . split
    . exact ends_ok _
    . exact risks_fault

theorem risks_readChildren {readChild : String → Value → Except Fault Rule} {i : Nat} {vs : List Value}
    (h : ∀ v ∈ vs, ∀ path, Risks Q (readChild path v)) : Risks Q (readChildren readChild path i vs) := by
  induction vs generalizing i with
  | nil => exact ends_ok _
  | cons v vs ih =>
    rw [List.forall_mem_cons] at h
    unfold readChildren
    exact ends_bind.mpr ⟨h.1 _, fun _ _ => ends_bind.mpr ⟨ih h.2, fun _ _ => ends_ok _⟩⟩

theorem risks_readLogic (hw : (Value.object fields).isWritable) : Risks Q (readLogic path fields) := by
  unfold readLogic noLogic
  split
  . split
    . exact ends_ok _
    . exact risks_fault
  . have hlogic : (fields.getD "logic" .null).isWritable :=
      Fields.getD_of (P := fun w => w.isWritable) (fun w hget => isWritable_of_get? hw hget) rfl
    rw [if_pos hlogic]
    exact risks_fault

theorem risks_readGroup {readChild : String → Value → Except Fault Rule} (hw : (Value.object fields).isWritable)
    (h : ∀ key ∈ ["children", "rules"], ∀ items, fields.get? key = some (.list items) →
      ∀ item ∈ items, ∀ path, Risks Q (readChild path item)) : Risks Q (readGroup readChild path fields) := by
  unfold readGroup
  refine ends_bind.mpr ⟨risks_readLogic hw, fun logic _ => ?_⟩
  generalize hkey : (if fields.has "children" then "children" else "rules") = key
  have hmem : key ∈ ["children", "rules"] := by
    rw [← hkey]
    split <;> simp
  dsimp only
  split
  . exact risks_fault
  . next items _ hitems =>
    refine ends_bind.mpr ⟨risks_readChildren ?_, fun _ _ => ends_ok _⟩
    have hgiven : fields.get? key = some (.list items) := by
      unfold Fields.getD at hitems
      cases hv : fields.get? key with
      | none =>
        rw [hv] at hitems
        cases hitems
      | some v =>
        rw [hv] at hitems
        exact congrArg some hitems
    exact h key hmem items hgiven
  . exact risks_fault

theorem isWritable_of_mem {items : List Value} (h : Value.itemsBelow Value.digitsLimit items) :
    ∀ item ∈ items, item.isWritable := by
  induction items with
  | nil => exact nofun
  | cons v vs ih =>
    rw [Value.itemsBelow, Bool.and_eq_true] at h
    rw [List.forall_mem_cons]
    exact ⟨h.1, ih h.2⟩

theorem risks_readWithin {levels : Nat} {v : Value} (h : HasWords v) (hw : v.isWritable) :
    Risks Q (readWithin levels path v) := by
  induction levels generalizing path v with
  | zero =>
    unfold readWithin
    split <;> first | exact risks_fault | contradiction
  | succ levels ih =>
    cases h with
    | other other =>
      cases v with
      | object fields => exact absurd rfl (other fields)
      | _ => exact risks_fault
    | node words children =>
      unfold readWithin readNode
      split
      . apply risks_readGroup hw
        intro key hkey items hitems item hitem path
        exact ih (children key hkey items hitems item hitem) (isWritable_of_mem (isWritable_of_get? hw hitems) item hitem)
      . exact ends_map.mpr (risks_readLeaf words hw)

theorem risks_read {v : Value} (h : HasWords v) (hw : v.isWritable) : Risks Q (read path v) :=
  risks_readWithin h hw

end Rule

namespace Configuration

open Transaction

section

variable {Q : Breakdown → Prop} {a : Author} {s : Store} {fields : Fields}

theorem risks_storedRule {kind : Kind} {rule : Value} (h : Rule.HasWords rule) (hw : rule.isWritable) :
    Risks Q (storedRule kind rule) := by
  unfold storedRule Kind.readRule
  refine ends_bind.mpr ⟨?_, fun _ _ => ends_ok _⟩
  split
  . exact ends_ok _
  . split
    . exact Rule.risks_fault
    . exact ends_map.mpr (Rule.risks_read h hw)

theorem risks_storedRule_of_isLoadable {kind : Kind} {c : Criterion} (h : c.IsLoadable) :
    Risks Q (storedRule kind c.rule) := by
  obtain ⟨stored, -, hcarries⟩ := h
  unfold Kind.Carries at hcarries
  split at hcarries
  . unfold storedRule Kind.readRule
    refine ends_bind.mpr ⟨?_, fun _ _ => ends_ok _⟩
    split
    . exact ends_ok _
    . split
      . exact Rule.risks_fault
      . exact ends_map.mpr (risks_of_exists (hcarries _))
  . rw [hcarries]
    exact risks_storedRule (.other nofun) rfl

/-! ## Criteria -/

/-- What the members of a criterion have to be, where they are given. -/
structure IsCriterionDocument (fields : Fields) : Prop where
  named : ∀ name, nameOf? fields longestName = some name → Column.checkText name = .ok ()
  described : Column.checkText (description fields) = .ok ()
  rule : ∀ v, fields.get? "rule" = some v → Rule.HasWords v ∧ v.isWritable
  placed : ∀ v, fields.get? "sort_order" = some v → ∃ n, v.toInteger = .ok n ∧ Column.checkInt n = .ok ()

theorem risks_requireKind {kind : Value} : Risks Q (requireKind kind) := by
  unfold requireKind
  split
  . exact ends_ok _
  . exact Rule.risks_fault

theorem risks_requireName : Risks Q (requireName fields) := by
  unfold requireName
  split
  . exact ends_ok _
  . exact ends_error.mpr trivial

theorem nameOf?_of_requireName {name : String} (h : requireName fields = .ok name) :
    nameOf? fields longestName = some name := by
  unfold requireName at h
  split at h
  . next given hgiven =>
    cases h
    exact hgiven
  . cases h

theorem risks_checkTexts {name description : String} (hname : Column.checkText name = .ok ())
    (hdescription : Column.checkText description = .ok ()) : Risks Q (checkTexts name description) :=
  risks_of_ok (checkTexts_eq_ok.mpr ⟨hname, hdescription⟩)

theorem risks_checkColumns {kind : Kind} {name description : String} {given rule : Value} (hw : given.isWritable)
    (hrule : storedRule kind given = .ok rule) (hname : Column.checkText name = .ok ())
    (hdescription : Column.checkText description = .ok ()) : Risks Q (checkColumns name description rule) := by
  have hdocument := Value.isDocument_of_isJson (isJson_of_storedRule hrule)
  exact risks_of_ok (checkColumns_eq_ok.mpr ⟨⟨hdocument, isWritable_of_storedRule hw hrule⟩, hname, hdescription⟩)

theorem risks_readCriterion {stage : Stage} (h : IsCriterionDocument fields)
    (hroom : (s.criteriaOf stage.id).length < Column.wordLimit) :
    Risks Q (readCriterion a stage (.object fields) s) := by
  unfold readCriterion
  refine ends_bind.mpr ⟨ends_ok fields, ?_⟩
  rintro _ ⟨⟩
  refine ends_bind.mpr ⟨risks_requireKind, fun kind _ => ?_⟩
  refine ends_bind.mpr ⟨risks_requireName, fun name hname => ?_⟩
  have hgiven : Rule.HasWords (Fields.getD fields "rule" .null) ∧ (Fields.getD fields "rule" .null).isWritable :=
    Fields.getD_of (P := fun v => Rule.HasWords v ∧ v.isWritable) h.rule ⟨.other nofun, rfl⟩
  refine ends_bind.mpr ⟨risks_storedRule hgiven.1 hgiven.2, fun rule hrule => ?_⟩
  obtain ⟨n, hn, hcheck⟩ : ∃ n, (Fields.getD fields "sort_order"
      (.int (s.criteriaOf stage.id).length)).toInteger = .ok n ∧ Column.checkInt n = .ok () := by
    apply Fields.getD_of (P := fun v => ∃ n, v.toInteger = .ok n ∧ Column.checkInt n = .ok ()) h.placed
    refine ⟨_, rfl, ?_⟩
    rw [Column.checkInt_eq_ok]
    omega
  refine ends_bind.mpr ⟨risks_of_ok hn, fun place hplace => ?_⟩
  rw [hn, Except.ok.injEq] at hplace
  subst hplace
  refine ends_bind.mpr ⟨?_, fun _ _ => ?_⟩
  . exact risks_checkColumns hgiven.2 hrule (h.named name (nameOf?_of_requireName hname)) h.described
  exact ends_bind.mpr ⟨risks_of_ok hcheck, fun _ _ => ends_ok _⟩

theorem risks_readUpdate {c : Criterion} (hload : c.IsLoadable) (hstore : c.IsStorable) (h : IsCriterionDocument fields) :
    Risks Q (readUpdate c fields) := by
  unfold readUpdate
  refine ends_bind.mpr ⟨risks_requireKind, fun kind _ => ?_⟩
  obtain ⟨hrule, hwritable⟩ : Risks Q (storedRule kind (Fields.getD fields "rule" c.rule)) ∧
      (Fields.getD fields "rule" c.rule).isWritable :=
    Fields.getD_of (P := fun rule => Risks Q (storedRule kind rule) ∧ rule.isWritable)
      (fun v hv => ⟨risks_storedRule (h.rule v hv).1 (h.rule v hv).2, (h.rule v hv).2⟩)
      ⟨risks_storedRule_of_isLoadable hload, hstore.rule⟩
  refine ends_bind.mpr ⟨hrule, fun rule hstored => ?_⟩
  have hdescription : Column.checkText ((if Fields.has fields "description" then some (description fields)
      else c.description).getD "") = .ok () := by
    split
    . exact h.described
    . exact hstore.description
  have hnumber {n : Int} (hn : Column.checkInt n = .ok ()) : Column.number (.int n) = .ok (.int n) := by
    simp [Column.number, hn, bind, Except.bind, pure, Except.pure]
  -- What is left when the name and the place are known, whether they are given or stay as they were.
  have hrest {name : String} {n : Int} (hname : Column.checkText name = .ok ()) (hn : Column.checkInt n = .ok ())
      (f : Value → Criterion) : Risks Q (do
        checkColumns name ((if Fields.has fields "description" then some (description fields) else c.description).getD "")
          rule
        return f (← Column.number (.int n))) :=
    ends_bind.mpr ⟨risks_checkColumns hwritable hstored hname hdescription, fun _ _ => ends_bind.mpr
      ⟨risks_of_ok (hnumber hn), fun _ _ => ends_ok _⟩⟩
  obtain ⟨place, hplace, hfits⟩ := hstore.place
  rw [hplace]
  dsimp only
  split
  . refine ends_bind.mpr ⟨risks_requireName, fun name hname => ?_⟩
    have hname := h.named name (nameOf?_of_requireName hname)
    split
    . next order horder =>
      obtain ⟨n, hn, hcheck⟩ := h.placed order horder
      rw [hn]
      exact hrest hname hcheck _
    . exact hrest hname hfits _
  . split
    . next order horder =>
      obtain ⟨n, hn, hcheck⟩ := h.placed order horder
      rw [hn]
      exact hrest hstore.name hcheck _
    . exact hrest hstore.name hfits _

section

variable (ha : ∃ actor, signature a.name = .ok actor)

include ha

theorem risks_addCriterion {stage : Stage} (h : IsCriterionDocument fields)
    (hroom : (s.criteriaOf stage.id).length < Column.wordLimit) :
    (Configuration.addCriterion a stage (.object fields)).Risks Q s := by
  unfold Configuration.addCriterion
  apply risks_reading_bind (risks_readCriterion h hroom)
  intro c _
  apply risks_bind risks_modify
  intro _ s' _
  exact risks_bind (risks_record ha) fun _ _ _ => risks_pure _

/-- Each of the criteria finds room behind the ones before it. -/
theorem risks_addCriteria {stage : Stage} {items : List Value} (home : stage.id ∈ s.stages.map (·.id))
    (h : ∀ item ∈ items, ∃ fields, item = .object fields ∧ IsCriterionDocument fields)
    (hroom : (s.criteriaOf stage.id).length + items.length ≤ Column.wordLimit) :
    Transaction.Risks Q (forIn items PUnit.unit fun data _ => do
        let _ ← Configuration.addCriterion a stage data
        return .yield PUnit.unit) s := by
  induction items generalizing s with
  | nil =>
    rw [List.forIn_nil]
    exact risks_pure _
  | cons item items ih =>
    rw [List.forall_mem_cons] at h
    obtain ⟨⟨fields, rfl, hfields⟩, hitems⟩ := h
    rw [List.length_cons] at hroom
    rw [List.forIn_cons, bind_assoc]
    apply risks_bind (risks_addCriterion ha hfields (by omega))
    intro c s' hadded
    obtain ⟨hnew, r, rfl⟩ := of_addCriterion home hadded
    rw [pure_bind]
    refine ih ?_ hitems ?_
    . exact home
    . have hcount : ((Store.addAudit { s with criteria := s.criteria ++ [c] } r).criteriaOf stage.id).length =
          (s.criteriaOf stage.id).length + 1 := by
        simp [Store.criteriaOf, Store.addAudit, List.filter_append, hnew.stage]
      omega

theorem risks_updateCriterion {c : Criterion} {shared : Bool} (hload : c.IsLoadable) (hstore : c.IsStorable)
    (home : c.stage ∈ s.stages.map (·.id)) (h : IsCriterionDocument fields) :
    (Configuration.updateCriterion a c (.object fields) shared).Risks Q s := by
  unfold Configuration.updateCriterion
  apply risks_lift_bind (ends_ok fields)
  rintro _ ⟨⟩
  apply risks_lift_bind (risks_readUpdate hload hstore h)
  intro updated _
  apply risks_bind risks_modify
  intro _ s' hput
  obtain ⟨stage, -, hstage⟩ : ∃ stage ∈ s'.stages, s'.stage? c.stage = some stage := by
    rw [← modify_eq_ok.mp hput]
    exact Store.exists_find?_of_mem_map home
  apply risks_reading_bind (risks_of_ok (a := stage.pipeline) (by rw [hstage]; rfl))
  intro pipeline _
  exact risks_bind (risks_record ha) fun _ _ _ => risks_pure _

end

end

end Configuration

end StageGate
