import StageGate.Proofs.Canonical
import StageGate.Proofs.Writes

/-!
This module contains that criteria are stored so that they can be loaded. A criterion that needs a rule is
stored with the written form of one, and any other criterion with none; an update that leaves the stored
rule as it was does so only where the new rule would have been of the same form. What is stored beside the rule
can be stored again, as it is when an update does not mention it.
-/

namespace StageGate

open Configuration

/-! ## Rules that kinds carry -/

/-- What a criterion of a kind carries: a rule that can be read wherever it stands, or none. -/
def Kind.Carries (k : Kind) (rule : Value) : Prop :=
  if k.hasRule then ∀ path, ∃ r, Rule.read path rule = .ok r else rule = .null

theorem Rule.exists_fields_of_read {path : String} {v : Value} {r : Rule} (h : read path v = .ok r) :
    ∃ fields, v = .object fields := by
  cases v with
  | object fields => exact ⟨fields, rfl⟩
  | _ => cases h

theorem Value.eq_null_of_sameIn_null {shared : Bool} {v : Value} (h : v.sameIn shared .null) : v = .null := by
  cases v with
  | null => rfl
  | _ => simp [sameIn, sameNumber, magnitude?, isNan] at h

theorem Value.eq_null_of_normal {v : Value} (h : v.normal = .null) : v = .null := by
  cases v with
  | null => rfl
  | _ => simp [normal] at h

namespace Kind.Carries

variable {k : Kind} {rule : Value}

theorem of_storedRule {given : Value} (h : storedRule k given = .ok rule) : k.Carries rule := by
  have hstored := storedRule_eq_ok h
  unfold Carries
  split at hstored
  . next hk =>
    obtain ⟨r, hread, rfl⟩ := hstored
    rw [if_pos hk]
    exact fun path => ⟨r.bare, Rule.read_toValue hread path⟩
  . next hk => rwa [if_neg hk]

theorem of_unchanged {k' : Kind} {old : Value} {supplied shared : Bool} (hold : k'.Carries old) (h : k.Carries rule)
    (hsame : ruleChanges supplied shared old rule = false) : k.Carries old := by
  have hsame : old.sameIn shared rule ∨ old.normal = rule.normal := by
    unfold ruleChanges at hsame
    split at hsame
    . exact .inl (by simpa using hsame)
    . exact .inr (by simpa using hsame)
  unfold Carries at *
  cases hk : k.hasRule with
  | false =>
    simp only [hk, Bool.false_eq_true, ↓reduceIte] at h ⊢
    rw [h] at hsame
    exact hsame.elim Value.eq_null_of_sameIn_null Value.eq_null_of_normal
  | true =>
    simp only [hk, ↓reduceIte] at h ⊢
    -- The new rule is an object, so the old one was no empty column.
    obtain ⟨r, hr⟩ := h ""
    obtain ⟨fields, rfl⟩ := Rule.exists_fields_of_read hr
    cases hk' : k'.hasRule with
    | true => simpa only [hk', ↓reduceIte] using hold
    | false =>
      simp only [hk', Bool.false_eq_true, ↓reduceIte] at hold
      rw [hold] at hsame
      simp [Value.sameIn, Value.sameNumber, Value.magnitude?, Value.isNan, Value.normal] at hsame

end Kind.Carries

/-! ## Criteria that load -/

/-- A criterion of one of the kinds, with what its kind carries. -/
def Criterion.IsLoadable (c : Criterion) : Prop :=
  ∃ kind : Kind, c.kind = kind.name ∧ kind.Carries c.rule

theorem Check.exists_ofParts {id name mandatory : Value} {kind : Kind} {rule : Option Rule}
    (h : kind.hasRule → rule.isSome) : ∃ check, ofParts id name kind mandatory rule = .ok check := by
  cases kind <;> cases rule <;> first | exact ⟨_, rfl⟩ | cases h rfl

theorem Criterion.IsLoadable.exists_compile {c : Criterion} (h : c.IsLoadable) :
    ∃ check, c.source.compile = .ok check := by
  obtain ⟨kind, hkind, hcarries⟩ := h
  have hofValue : Kind.ofValue? c.source.kind = some kind := by
    simp [source, Kind.ofValue?, hkind]
  unfold CheckSource.compile
  simp only [hofValue, bind_eq_ok]
  unfold Kind.Carries at hcarries
  cases hk : kind.hasRule with
  | false =>
    obtain ⟨check, hcheck⟩ : ∃ check, Check.ofParts c.source.id c.source.name kind (.bool c.source.mandatory) none
        = .ok check := Check.exists_ofParts (by simp [hk])
    exact ⟨check, none, by simp [Kind.readRule, hk], hcheck⟩
  | true =>
    simp only [hk, ↓reduceIte] at hcarries
    obtain ⟨r, hr⟩ := hcarries (c.source.path ++ ".rule")
    obtain ⟨fields, hfields⟩ := Rule.exists_fields_of_read hr
    obtain ⟨check, hcheck⟩ : ∃ check, Check.ofParts c.source.id c.source.name kind (.bool c.source.mandatory) (some r)
        = .ok check := Check.exists_ofParts (by simp)
    refine ⟨check, some r, ?_, hcheck⟩
    have hnull : c.source.rule.isNull = false := by
      have : c.source.rule = .object fields := hfields
      rw [this]
      rfl
    have hread : Rule.read (c.source.path ++ ".rule") c.source.rule = .ok r := hr
    simp [Kind.readRule, hk, hnull, hread, Except.map]

namespace Store

def HasLoadable (s : Store) : Prop :=
  ∀ c ∈ s.criteria, c.IsLoadable

theorem HasLoadable.exists_compileAll {s : Store} (h : s.HasLoadable) (stage : Int) :
    ∃ checks, CheckSource.compileAll (s.sourcesOf stage) = .ok checks := by
  apply exists_mapM
  intro source hsource
  obtain ⟨c, hc, -, -, rfl⟩ := mem_sourcesOf.mp hsource
  exact (h c hc).exists_compile

end Store

/-! ## Criteria that can be stored again -/

structure Criterion.IsStorable (c : Criterion) : Prop where
  name : Column.checkText c.name = .ok ()
  description : Column.checkText (c.description.getD "") = .ok ()
  place : ∃ n, c.sortOrder = .int n ∧ Column.checkInt n = .ok ()
  rule : c.rule.isWritable

/-! ## Writing criteria -/

namespace Configuration

open Transaction

variable {a : Author}

theorem checkTexts_eq_ok {name description : String} : checkTexts name description = .ok () ↔
    Column.checkText name = .ok () ∧ Column.checkText description = .ok () := by
  unfold checkTexts
  rw [bind_eq_ok]
  exact ⟨fun ⟨_, h⟩ => h, fun h => ⟨(), h⟩⟩

theorem isWritable_of_storedRule {kind : Kind} {given rule : Value} (hw : given.isWritable)
    (h : storedRule kind given = .ok rule) : rule.isWritable := by
  have hstored := storedRule_eq_ok h
  split at hstored
  . obtain ⟨r, hread, rfl⟩ := hstored
    exact Rule.isWritable_of_read hw hread
  . rw [hstored]
    rfl

theorem checkDocument_eq_ok {v : Value} : Column.checkDocument v = .ok () ↔ Column.isDocument v ∧ v.isWritable := by
  unfold Column.checkDocument
  rw [← Bool.and_eq_true]
  cases Column.isDocument v && v.isWritable <;> simp

theorem checkColumns_eq_ok {name description : String} {rule : Value} : checkColumns name description rule = .ok () ↔
    (Column.isDocument rule ∧ rule.isWritable) ∧ Column.checkText name = .ok () ∧ Column.checkText description = .ok () := by
  unfold checkColumns
  rw [bind_eq_ok, ← checkDocument_eq_ok, ← checkTexts_eq_ok]
  exact ⟨fun ⟨_, h⟩ => h, fun h => ⟨(), h⟩⟩

/-- What is known of a criterion that was read from a document for a stage. -/
structure IsNewCriterion (stage : Stage) (s : Store) (c : Criterion) : Prop where
  home : stage.id ∈ s.stages.map (·.id)
  id : c.id = Store.nextId (s.criteria.map (·.id))
  stage : c.stage = stage.id
  loadable : c.IsLoadable
  storable : c.IsStorable

theorem isNew_of_readCriterion {stage : Stage} {data : Value} {s : Store} {c : Criterion}
    (home : stage.id ∈ s.stages.map (·.id)) (h : readCriterion a stage data s = .ok c) : IsNewCriterion stage s c := by
  unfold readCriterion at h
  simp only [bind_eq_ok, pure, Except.pure, Except.ok.injEq] at h
  obtain ⟨_, -, kind, -, _, -, rule, hrule, place, -, _, htexts, _, hplace, rfl⟩ := h
  obtain ⟨⟨-, hwritable⟩, hname, hdescription⟩ := checkColumns_eq_ok.mp htexts
  exact ⟨home, rfl, rfl, ⟨kind, rfl, .of_storedRule hrule⟩, hname, hdescription, ⟨place, rfl, hplace⟩, hwritable⟩

theorem of_addCriterion {stage : Stage} {data : Value} {s s' : Store} {c : Criterion}
    (home : stage.id ∈ s.stages.map (·.id)) (h : addCriterion a stage data s = .ok (c, s')) :
    IsNewCriterion stage s c ∧ ∃ r, s' = Store.addAudit { s with criteria := s.criteria ++ [c] } r := by
  simp only [addCriterion, recordCreation, Transaction.addCriterion, Transaction.bind_eq_ok, reading_eq_ok,
    modify_eq_ok, record_eq_ok, pure_eq_ok] at h
  obtain ⟨_, _, ⟨hc, rfl⟩, _, _, rfl, _, _, ⟨name, -, rfl⟩, rfl, rfl⟩ := h
  exact ⟨isNew_of_readCriterion home hc, _, rfl⟩

/-! ## Updates of criteria -/

/-- What is known of a criterion that takes the place of another one. -/
structure IsUpdate (c updated : Criterion) : Prop where
  id : updated.id = c.id
  stage : updated.stage = c.stage
  loadable : c.IsLoadable → updated.IsLoadable
  storable : c.IsStorable → updated.IsStorable

theorem exists_of_number_int {n : Int} {kept : Value} (h : Column.number (.int n) = .ok kept) :
    ∃ m, kept = .int m ∧ Column.checkInt m = .ok () := by
  simp only [Column.number, bind_eq_ok, pure, Except.pure, Except.ok.injEq] at h
  obtain ⟨_, hcheck, rfl⟩ := h
  exact ⟨n, rfl, hcheck⟩

theorem exists_of_toInteger_map {v place : Value} (h : v.toInteger.map Value.int = .ok place) : ∃ n, place = .int n := by
  obtain ⟨n, -, rfl⟩ := map_eq_ok.mp h
  exact ⟨n, rfl⟩

section

variable {c w : Criterion} {fields : Fields}

theorem exists_of_askedPlace {place : Value} (hc : ∃ n, c.sortOrder = .int n)
    (h : askedPlace c fields = .ok place) : ∃ n, place = .int n := by
  unfold askedPlace at h
  split at h
  . exact exists_of_toInteger_map h
  . cases h
    exact hc

theorem of_readUpdate (h : readUpdate c fields = .ok w) :
    w.id = c.id ∧ w.stage = c.stage ∧ w.IsLoadable ∧ (c.IsStorable → w.IsStorable) := by
  rw [readUpdate_eq] at h
  simp only [bind_eq_ok, pure, Except.pure, Except.ok.injEq] at h
  obtain ⟨kind, -, rule, hrule, name, -, place, hplace, _, htexts, kept, hkept, rfl⟩ := h
  obtain ⟨⟨-, hwritable⟩, hname, hdescription⟩ := checkColumns_eq_ok.mp htexts
  refine ⟨rfl, rfl, ⟨kind, rfl, .of_storedRule hrule⟩, fun hc => ⟨hname, hdescription, ?_, hwritable⟩⟩
  obtain ⟨n, rfl⟩ := exists_of_askedPlace (hc.place.imp fun _ hn => hn.1) hplace
  exact exists_of_number_int hkept

/-- The row of a criterion after an update that asks for another one. -/
def updatedRow (now : Instant) (supplied shared : Bool) (c w : Criterion) : Criterion :=
  let changed := ruleChanges supplied shared c.rule w.rule
  { w with
    rule := if changed then w.rule else c.rule
    updatedAt := if (changesOf changed c w).isEmpty then c.updatedAt else some now }

theorem updateCriterion_eq_ok {a : Author} {data : Value} {shared : Bool} {row : Criterion} {s s' : Store}
    (h : updateCriterion a c data shared s = .ok (row, s')) :
    ∃ (fields : Fields) (w : Criterion) (pipeline : Int) (actor : String), data = .object fields ∧
      readUpdate c fields = .ok w ∧ row = updatedRow a.now (fields.has "rule") shared c w ∧
      s' = Store.addAudit { s with criteria := s.criteria.map fun x => if x.id = row.id then row else x }
        (Note.row ⟨.criterion, c.id, none, some pipeline, .update, a.name,
          .document (.object (changesOf (ruleChanges (fields.has "rule") shared c.rule w.rule) c w))⟩ actor a.now s) := by
  simp only [updateCriterion, putCriterion, Transaction.bind_eq_ok, lift_eq_ok, reading_eq_ok, modify_eq_ok,
    record_eq_ok, pure_eq_ok] at h
  obtain ⟨fields, _, ⟨hdata, rfl⟩, w, _, ⟨hread, rfl⟩, _, _, rfl, pipeline, _, ⟨-, rfl⟩, _, _, ⟨actor, -, rfl⟩, hrow,
    rfl⟩ := h
  subst hrow
  refine ⟨fields, w, pipeline, actor, ?_, hread, rfl, rfl⟩
  unfold Value.members at hdata
  split at hdata <;> cases hdata
  rfl

theorem of_updateCriterion {data : Value} {shared : Bool} {row : Criterion} {s s' : Store}
    (h : updateCriterion a c data shared s = .ok (row, s')) :
    IsUpdate c row ∧ ∃ r, s' = Store.addAudit
      { s with criteria := s.criteria.map fun x => if x.id = row.id then row else x } r := by
  obtain ⟨fields, w, pipeline, actor, -, hread, rfl, hs⟩ := updateCriterion_eq_ok h
  obtain ⟨hid, hstage, ⟨kind, hkind, hcarries⟩, hstorable⟩ := of_readUpdate hread
  refine ⟨⟨hid, hstage, fun ⟨_, _, hold⟩ => ⟨kind, hkind, ?_⟩, fun hc => ?_⟩, _, hs⟩
  . unfold updatedRow
    dsimp only
    split
    . exact hcarries
    . next hsame => exact .of_unchanged hold hcarries (by simpa using hsame)
  . refine ⟨(hstorable hc).name, (hstorable hc).description, (hstorable hc).place, ?_⟩
    unfold updatedRow
    dsimp only
    split
    . exact (hstorable hc).rule
    . exact hc.rule

end

end Configuration

end StageGate
