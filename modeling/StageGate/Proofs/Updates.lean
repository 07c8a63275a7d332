import StageGate.Proofs.Loadable

/-!
This module contains what an update of a criterion does: what it asks for, which row it leaves behind, what it writes
into the audit trail and what is compiled next. A rule that is equal to the stored one is not written, and values can
be equal that are different documents; where that happens the stored rule stays as it was.
-/

namespace StageGate

/-! ## Numbers that were stored -/

theorem Value.normal_of_isScalar {v : Value} (h : Rule.isScalar v) : v.normal = v := by
  cases v <;> first | rfl | cases h

namespace Column

theorem number_int {n : Int} (h : checkInt n = .ok ()) : number (.int n) = .ok (.int n) := by
  rw [number, h]
  rfl

theorem float_of_numberOf {x y : Binary64} (h : numberOf x = .float y) : x = y := by
  unfold numberOf at h
  split at h
  . cases h
  . split at h
    . split at h <;> cases h
      rfl
    . cases h
      rfl

theorem number_numberOf (x : Binary64) : number (numberOf x) = .ok (numberOf x) := by
  cases h : numberOf x with
  | null => rfl
  | int n => exact number_int (checkInt_of_numberOf h)
  | float y =>
    have hxy := float_of_numberOf h
    subst hxy
    rw [number, h]
  | _ =>
    unfold numberOf at h
    split at h
    . cases h
    . split at h
      . split at h <;> cases h
      . cases h

theorem numberOfText_cases (s : String) :
    numberOfText s = .text s ∨ (∃ n, numberOfText s = .int n) ∨ ∃ x, numberOfText s = numberOf x := by
  unfold numberOfText
  dsimp only
  split
  . exact .inl rfl
  . generalize (if (Numeral.takeSign (Text.strip isPadding s.toList)).1 = true then _ else _ : Int) = n
    split
    . exact .inr (.inl ⟨n, rfl⟩)
    . exact .inr (.inr ⟨_, rfl⟩)

theorem number_numberOfText {s : String} (h : checkText s = .ok ()) :
    number (numberOfText s) = .ok (numberOfText s) := by
  rcases numberOfText_cases s with hs | ⟨n, hs⟩ | ⟨x, hs⟩
  . rw [hs, number, h, ok_bind, hs]
    rfl
  . rw [hs]
    exact number_int (checkInt_of_numberOfText hs)
  . rw [hs]
    exact number_numberOf x

/-- A number that was stored is stored again as it is. -/
theorem number_number {v w : Value} (h : number v = .ok w) : number w = .ok w := by
  cases v with
  | null =>
    cases h
    rfl
  | bool b =>
    cases b <;> cases h <;> rfl
  | int n =>
    simp only [number, bind_eq_ok, pure, Except.pure, Except.ok.injEq] at h
    obtain ⟨_, hcheck, rfl⟩ := h
    exact number_int hcheck
  | float x =>
    cases h
    exact number_numberOf x
  | text s =>
    simp only [number, bind_eq_ok, pure, Except.pure, Except.ok.injEq] at h
    obtain ⟨_, hcheck, rfl⟩ := h
    exact number_numberOfText hcheck
  | list | object | decimal => cases h

theorem isScalar_of_number {v w : Value} (h : number v = .ok w) : Rule.isScalar w := by
  have hw := number_number h
  cases w with
  | list | object | decimal => cases hw
  | _ => rfl

end Column

/-! ## What an update asks for -/

namespace Configuration

open Transaction

section

variable {c w : Criterion} {fields : Fields}

/-- A criterion as an update asks for it: what the document mentions in its stored form, and the rest as it was. -/
structure Asks (c : Criterion) (fields : Fields) (w : Criterion) : Prop where
  id : w.id = c.id
  stage : w.stage = c.stage
  name : askedName c fields = .ok w.name
  description : w.description = askedDescription c fields
  kind : ∃ kind, Kind.ofValue? (fields.getD "kind" (.text c.kind)) = some kind ∧ w.kind = kind.name ∧
    if kind.hasRule then ∃ r, Rule.read "criterion.rule" (fields.getD "rule" c.rule) = .ok r ∧ w.rule = r.toValue
    else w.rule = .null
  mandatory : w.mandatory = isSet fields "mandatory" c.mandatory
  place : askedPlace c fields = .ok w.sortOrder
  isActive : w.isActive = isSet fields "is_active" c.isActive

theorem requireKind_eq_ok {given : Value} {kind : Kind} (h : requireKind given = .ok kind) :
    Kind.ofValue? given = some kind := by
  unfold requireKind at h
  split at h
  . next k hk =>
    cases h
    exact hk
  . cases h

theorem asks_of_readUpdate (hplace : Column.number c.sortOrder = .ok c.sortOrder)
    (h : readUpdate c fields = .ok w) : Asks c fields w := by
  rw [readUpdate_eq] at h
  simp only [bind_eq_ok, pure, Except.pure, Except.ok.injEq] at h
  obtain ⟨kind, hkind, rule, hrule, name, hname, place, hasked, _, -, kept, hkept, rfl⟩ := h
  have hplaced : kept = place := by
    unfold askedPlace at hasked
    split at hasked
    . obtain ⟨n, rfl⟩ := exists_of_toInteger_map hasked
      simp only [Column.number, bind_eq_ok, pure, Except.pure, Except.ok.injEq] at hkept
      obtain ⟨_, -, hkept⟩ := hkept
      exact hkept.symm
    . cases hasked
      rw [hplace, Except.ok.injEq] at hkept
      exact hkept.symm
  subst hplaced
  exact ⟨rfl, rfl, hname, rfl, ⟨kind, requireKind_eq_ok hkind, rfl, storedRule_eq_ok hrule⟩, rfl, hasked, rfl⟩

theorem isScalar_of_readUpdate (h : readUpdate c fields = .ok w) : Rule.isScalar w.sortOrder := by
  rw [readUpdate_eq] at h
  simp only [bind_eq_ok, pure, Except.pure, Except.ok.injEq] at h
  obtain ⟨_, -, _, -, _, -, _, -, _, -, kept, hkept, rfl⟩ := h
  exact Column.isScalar_of_number hkept

end

end Configuration

/-! ## The audit of an update -/

/-- The members that two states of a criterion do not have in common as documents, with the old and the new value. -/
def Criterion.changesTo (c d : Criterion) : Fields :=
  (c.editable.zip d.editable).filterMap fun ((key, v), (_, w)) =>
    if v.normal = w.normal then none else some (key, Change.pair v w)

namespace Configuration

variable {c w : Criterion}

theorem rule_mem_changesOf {changed : Bool} :
    ("rule", Change.pair c.rule w.rule) ∈ changesOf changed c w ↔ changed = true := by
  simp [changesOf, Criterion.editable]

theorem rule_mem_changesTo {d : Criterion} :
    ("rule", Change.pair c.rule d.rule) ∈ c.changesTo d ↔ c.rule.normal ≠ d.rule.normal := by
  simp [Criterion.changesTo, Criterion.editable]

theorem filterMap_cons_congr {α β : Type} {f g : α → Option β} {x y : α} {xs ys : List α} (h : f x = g y)
    (hrest : xs.filterMap f = ys.filterMap g) : (x :: xs).filterMap f = (y :: ys).filterMap g := by
  rw [List.filterMap_cons, List.filterMap_cons, h, hrest]

/-- A rule is written and told of rightly if it counts as changed just where it is another document. -/
theorem rule_written_iff {supplied shared : Bool} {old new : Value} :
    (if ruleChanges supplied shared old new then new else old).normal = new.normal ∧
      (ruleChanges supplied shared old new = true → old.normal ≠ new.normal) ↔
        (supplied → (old.sameIn shared new ↔ old.normal = new.normal)) := by
  cases supplied with
  | false =>
    simp only [ruleChanges, Bool.false_eq_true, ↓reduceIte, decide_eq_true_eq]
    by_cases h : old.normal = new.normal <;> simp [h]
  | true =>
    simp only [ruleChanges, ↓reduceIte, Bool.not_eq_true']
    cases old.sameIn shared new <;> by_cases h : old.normal = new.normal <;> simp [h]

/-- The changes that are found are those of the row, but for a rule that only counts as another one. -/
theorem changesOf_eq_iff {changed : Bool} {updatedAt : Option Instant} (hc : Rule.isScalar c.sortOrder)
    (hw : Rule.isScalar w.sortOrder) :
    changesOf changed c w = c.changesTo { w with rule := if changed then w.rule else c.rule, updatedAt } ↔
      (changed = true → c.rule.normal ≠ w.rule.normal) := by
  constructor
  . intro h hchanged
    subst hchanged
    have hmem : ("rule", Change.pair c.rule w.rule) ∈ changesOf true c w := rule_mem_changesOf.mpr rfl
    rw [h] at hmem
    exact rule_mem_changesTo.mp hmem
  . intro h
    have hscalar {key : String} {v v' : Value} (hkey : key ≠ "rule") (hv : Rule.isScalar v) (hv' : Rule.isScalar v') :
        (if (if key = "rule" then changed else decide (v ≠ v')) = true then some (key, Change.pair v v') else none) =
          if v.normal = v'.normal then none else some (key, Change.pair v v') := by
      rw [if_neg hkey, Value.normal_of_isScalar hv, Value.normal_of_isScalar hv']
      simp
    have htext (s : Option String) : Rule.isScalar (.ofText? s) := by cases s <;> rfl
    refine filterMap_cons_congr (hscalar (by decide) rfl rfl) ?_
    refine filterMap_cons_congr (hscalar (by decide) (htext _) (htext _)) ?_
    refine filterMap_cons_congr (hscalar (by decide) rfl rfl) ?_
    refine filterMap_cons_congr (hscalar (by decide) rfl rfl) ?_
    refine filterMap_cons_congr ?_ ?_
    . cases changed with
      | true => simp [h rfl]
      | false => simp
    refine filterMap_cons_congr (hscalar (by decide) hc hw) ?_
    exact filterMap_cons_congr (hscalar (by decide) rfl rfl) rfl

end Configuration

/-! ## Reading the row again -/

namespace Store

variable {s : Store} {id : Value} {c row : Criterion}

theorem require_of_map {α : Type} {resource : String} {row? row?' : Int → Option α} {f : α → α} {a : α}
    (hmap : ∀ n, row?' n = (row? n).map f) (h : require resource row? id = .ok a) :
    require resource row?' id = .ok (f a) := by
  obtain ⟨v, n, hv, hn, hrow⟩ := row?_of_require h
  unfold require seek
  rw [hv, ok_bind, hn, ok_bind]
  simp only [Option.bind_some, hmap, hrow, Option.map_some, pure_bind]
  rfl

theorem criterion_of_put (h : s.criterion id = .ok c) (hid : row.id = c.id) :
    Store.criterion { s with criteria := s.criteria.map fun x => if x.id = row.id then row else x } id = .ok row := by
  have hmap (n : Int) : Store.criterion? { s with criteria := s.criteria.map fun x => if x.id = row.id then row else x } n
      = (s.criterion? n).map fun x => if x.id = row.id then row else x := by
    have hsame : ((fun x => decide (x.id = n)) ∘ fun x : Criterion => if x.id = row.id then row else x) =
        fun x => decide (x.id = n) := by
      funext x
      simp only [Function.comp_apply]
      split
      . next hx => rw [hx]
      . rfl
    unfold criterion?
    rw [List.find?_map, hsame]
  have hrow := require_of_map hmap h
  rwa [if_pos hid.symm] at hrow

end Store

theorem CriteriaCache.hit?_drop (cache : CriteriaCache) (stage : Int) (sources : List CheckSource) :
    (cache.drop stage).hit? stage sources = none := by
  have hnone : (cache.drop stage).find? stage = none := by
    unfold find? drop
    rw [List.find?_eq_none]
    intro x hx
    simpa using (List.mem_filter.mp hx).2
  unfold hit?
  rw [hnone]
  rfl

theorem Operation.loadChecks_of_drop {s : Service} {stage : Int} :
    (loadChecks stage { s with cache := s.cache.drop stage }).1 = CheckSource.compileAll (s.store.sourcesOf stage) := by
  rw [loadChecks_eq]
  unfold CriteriaCache.load
  simp only [CriteriaCache.hit?_drop]
  cases CheckSource.compileAll (s.store.sourcesOf stage) <;> rfl

/-! ## Updates of a service -/

namespace Administration

open Operation Configuration

variable {a : Author} {id data : Value} {shared : Bool} {s s' : Service} {row : Criterion}

theorem updateCriterion_eq_ok (h : updateCriterion a id data shared s = (.ok row, s')) : ∃ c store,
    s.store.criterion id = .ok c ∧ Configuration.updateCriterion a c data shared s.store = .ok (row, store) ∧
      s' = { s with store, cache := s.cache.drop c.stage } := by
  rw [updateCriterion_eq, reading_bind_eq] at h
  split at h
  . next c hc =>
    rw [commit_bind_eq] at h
    split at h
    . next answered store hupdate =>
      cases h
      exact ⟨c, store, hc, hupdate, rfl⟩
    . cases h
  . cases h

/--
An update leaves behind what it asks for, tells the audit trail what has changed, and is what the stage is compiled
from next. For the rule, and for what is told of it, this is so exactly if a rule that is supplied counts as the stored
one just where it is the same document.
-/
theorem updateCriterion_takes_effect (hplaces : ∀ c ∈ s.store.criteria, ∃ v, Column.number v = .ok c.sortOrder)
    (h : updateCriterion a id data shared s = (.ok row, s')) :
    ∃ c fields w r diff, s.store.criterion id = .ok c ∧ data = .object fields ∧ Asks c fields w ∧
      s'.store.criterion id = .ok row ∧ row = { w with rule := row.rule, updatedAt := row.updatedAt } ∧
      s'.store.audit = s.store.audit ++ [r] ∧
      (r.subject = .criterion ∧ r.subjectId = toString c.id ∧ r.action = .update ∧ r.change = .document (.object diff)) ∧
      (loadChecks c.stage s').1 = CheckSource.compileAll (s'.store.sourcesOf c.stage) ∧
      (row.rule.normal = w.rule.normal ∧ diff = c.changesTo row ↔
        (Fields.has fields "rule" → (c.rule.sameIn shared w.rule ↔ c.rule.normal = w.rule.normal))) := by
  obtain ⟨c, store, hc, hupdate, rfl⟩ := updateCriterion_eq_ok h
  obtain ⟨fields, w, pipeline, actor, hdata, hread, hrow, hstore⟩ := Configuration.updateCriterion_eq_ok hupdate
  obtain ⟨v, hv⟩ := hplaces c (Store.mem_of_criterion hc)
  have hasks := asks_of_readUpdate (Column.number_number hv) hread
  have hid : row.id = c.id := by
    rw [hrow]
    exact hasks.id
  refine ⟨c, fields, w, _, changesOf (ruleChanges (fields.has "rule") shared c.rule w.rule) c w, hc, hdata, hasks, ?_, ?_,
    by rw [hstore]; rfl, ⟨rfl, rfl, rfl, rfl⟩, @loadChecks_of_drop { s with store } c.stage, ?_⟩
  . rw [hstore]
    exact Store.criterion_of_put hc hid
  . rw [hrow]
    rfl
  . rw [hrow, updatedRow]
    dsimp only
    rw [changesOf_eq_iff (Column.isScalar_of_number hv) (isScalar_of_readUpdate hread)]
    exact rule_written_iff

def scoreRule (threshold : Value) : Value :=
  .object [("domain", .text "entity-field"), ("field", .text "lead_score"), ("operator", .text ">="),
    ("value", threshold)]

def scoreGate (threshold : Value) : Criterion :=
  ⟨1, 1, "Score", none, "automatic", true, scoreRule threshold, .int 0, true, none, none⟩

def guarded (threshold : Value) : Service :=
  let stage : Stage := ⟨1, 1, "New", .int 1, .int 0, none, none, false, .null⟩
  { Service.empty with store := { Store.empty with stages := [stage], criteria := [scoreGate threshold] } }

def admin : Author :=
  ⟨.text "system", ⟨63908038800000000⟩⟩

theorem updateCriterion_takes_effect_renamed : ∃ row s',
    updateCriterion admin (.int 1) (.object [("name", .text "Threshold")]) false (guarded (.int 75)) = (.ok row, s') ∧
      ∃ c w diff, Asks c [("name", .text "Threshold")] w ∧ row.rule.normal = w.rule.normal ∧ diff = c.changesTo row := by
  cases h : updateCriterion admin (.int 1) (.object [("name", .text "Threshold")]) false (guarded (.int 75)) with
  | mk answer s' =>
    have hok : (updateCriterion admin (.int 1) (.object [("name", .text "Threshold")]) false (guarded (.int 75))).1.isOk := by
      decide +kernel
    rw [h] at hok
    obtain ⟨row, hrow⟩ := exists_of_isOk hok
    dsimp only at hrow
    subst hrow
    have hplaces : ∀ c ∈ (guarded (.int 75)).store.criteria, ∃ v, Column.number v = .ok c.sortOrder := by
      intro c hc
      obtain rfl : c = scoreGate (.int 75) := by simpa [guarded] using hc
      exact ⟨.int 0, rfl⟩
    obtain ⟨c, fields, w, r, diff, -, hdata, hasks, -, -, -, -, -, hrule⟩ := updateCriterion_takes_effect hplaces h
    cases hdata
    obtain ⟨hnormal, hdiff⟩ := hrule.mpr fun hsupplied => absurd hsupplied (by decide)
    exact ⟨row, s', rfl, c, w, diff, hasks, hnormal, hdiff⟩

/-- The threshold `true` counts as the threshold 1, so that the one stays in force when the other is asked for. -/
theorem update_of_equal_rule_lost : ¬∀ (s s' : Service) (a : Author) (id : Value) (fields : Fields) (shared : Bool)
    (c w row : Criterion),
    s.store.criterion id = .ok c → Asks c fields w → updateCriterion a id (.object fields) shared s = (.ok row, s') →
      row.rule.normal = w.rule.normal := by
  intro h
  let fields : Fields := [("rule", scoreRule (.int 1))]
  cases hupdate : updateCriterion admin (.int 1) (.object fields) true (guarded (.bool true)) with
  | mk answer s' =>
    have hkept : (updateCriterion admin (.int 1) (.object fields) true (guarded (.bool true))).1.toOption.map (·.rule) =
        some (scoreRule (.bool true)) := by
      decide +kernel
    have hread : ∃ r, Rule.read "criterion.rule" (scoreRule (.int 1)) = .ok r ∧ scoreRule (.int 1) = r.toValue := by
      have hwritten : (Rule.read "criterion.rule" (scoreRule (.int 1))).toOption.map Rule.toValue =
          some (scoreRule (.int 1)) := by
        decide +kernel
      cases hr : Rule.read "criterion.rule" (scoreRule (.int 1)) with
      | error e => simp [hr, Except.toOption] at hwritten
      | ok r => exact ⟨r, rfl, by simpa [hr, Except.toOption] using hwritten.symm⟩
    have hasks : Asks (scoreGate (.bool true)) fields (scoreGate (.int 1)) :=
      ⟨rfl, rfl, rfl, rfl, ⟨.automatic, by decide, rfl, hread⟩, rfl, rfl, rfl⟩
    rw [hupdate] at hkept
    cases answer with
    | error e => cases hkept
    | ok row =>
      have hrow : row.rule = scoreRule (.bool true) := Option.some.inj hkept
      have hlost := h _ _ _ _ _ _ _ _ _ (by rfl) hasks hupdate
      rw [hrow] at hlost
      exact absurd hlost (by decide +kernel)

end Administration

end StageGate
