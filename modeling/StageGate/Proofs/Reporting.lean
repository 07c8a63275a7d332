import StageGate.Proofs.Cache
import StageGate.Proofs.Documents
import StageGate.Proofs.Grammar
import StageGate.Proofs.Updates

/-!
This module contains how malformed rules are reported: as faults of the configuration, with a path that leads into
the rule. This is so wherever rules are read, in a reading alone, in the loading of a stage and in the writing of a
criterion, unless the first flaw of a rule is a list or an object in the place of a word.
-/

namespace StageGate

open Rule (IsSound FirstFlaw HasMisfit locate childPath)

/-- A fault that is reported as one of the configuration, with a path that continues another one. -/
def Fault.PointsInto (path : String) (e : Fault) : Prop :=
  ∃ reason rest, e = .refused (.misconfigured reason (path ++ rest) [])

theorem Fault.PointsInto.of_append {path rest : String} {e : Fault} (h : e.PointsInto (path ++ rest)) :
    e.PointsInto path := by
  obtain ⟨reason, rest', rfl⟩ := h
  exact ⟨reason, rest ++ rest', by rw [String.append_assoc]⟩

namespace Rule

variable {path : String} {v : Value}

theorem pointsInto_fault {α : Type} {reason rest : String} :
    Ends (Fault.PointsInto path) (fault (path ++ rest) reason : Except Fault α) :=
  ends_error.mpr ⟨reason, rest, rfl⟩

theorem exists_locate_eq (path : String) (key : Option String) (way : List Nat) :
    ∃ rest, locate path key way = path ++ rest := by
  induction way generalizing path with
  | nil =>
    cases key with
    | none => exact ⟨"", by rw [String.append_empty]; rfl⟩
    | some key => exact ⟨"." ++ key, by rw [← String.append_assoc]; rfl⟩
  | cons i way ih =>
    obtain ⟨rest, hrest⟩ := ih (childPath path i)
    refine ⟨".children[" ++ toString i ++ "]" ++ rest, ?_⟩
    rw [locate, hrest, childPath]
    simp only [String.append_assoc]

theorem FirstFlaw.unique {depth : Nat} {way way' : List Nat} {node node' : Value} {key key' : Option String}
    (h : FirstFlaw depth v way node key) (h' : FirstFlaw depth v way' node' key') : node = node' ∧ key = key' := by
  have hway : way = way' := by
    apply List.le_antisymm
    . exact h.first way' node' h'.found (by simp [h'.flawed])
    . exact h'.first way node h.found (by simp [h.flawed])
  subst hway
  have hnode : node = node' := Option.some.inj (h.found.symm.trans h'.found)
  subst hnode
  exact ⟨rfl, Option.some.inj (h.flawed.symm.trans h'.flawed)⟩

/-- A value that is a rule, or has a first flaw other than a value in the place of a word that cannot be turned down. -/
def IsReportable (v : Value) : Prop :=
  ∀ way node key, FirstFlaw 0 v way node key → ¬HasMisfit key node

/-- A value that can be reported, or else stored: no integer in the form that is stored has too many digits. -/
def IsStorable (path : String) (v : Value) : Prop :=
  IsReportable v ∧ ∀ r, read path v = .ok r → r.toValue.isWritable

theorem ends_read_iff : Ends (Fault.PointsInto path) (read path v) ↔ IsReportable v := by
  have hfollows := follows_read path v
  cases h : read path v with
  | ok r =>
    rw [h] at hfollows
    exact iff_of_true (ends_ok r) fun way node key hfirst => absurd hfollows hfirst.not_isSound
  | error e =>
    rw [h] at hfollows
    obtain ⟨way, node, key, hfirst, hreport⟩ := hfollows
    rw [ends_error]
    rcases hreport with ⟨hmisfit, hbroken⟩ | ⟨hmisfit, reason, rfl⟩
    . refine iff_of_false ?_ fun hall => hall way node key hfirst hmisfit
      rintro ⟨_, _, rfl⟩
      rcases hbroken with hbroken | hbroken <;> cases hbroken
    . obtain ⟨rest, hrest⟩ := exists_locate_eq path key way
      refine iff_of_true ⟨reason, rest, by rw [hrest]⟩ fun way' node' key' hfirst' => ?_
      obtain ⟨rfl, rfl⟩ := hfirst.unique hfirst'
      exact hmisfit

theorem isReportable_of_isNull (h : v.isNull) : IsReportable v := by
  obtain rfl : v = .null := by cases v <;> first | rfl | cases h
  exact (@ends_read_iff "" .null).mp (ends_error.mpr ⟨_, "", rfl⟩)

/-- A rule is read of a criterion as of anything else, and not at all where the kind of the criterion has none. -/
theorem ends_readRule_iff {k : Kind} :
    Ends (Fault.PointsInto path) (k.readRule path v) ↔ (k.hasRule → IsReportable v) := by
  unfold Kind.readRule
  cases k.hasRule with
  | false => simp
  | true =>
    simp only [Bool.not_true, Bool.false_eq_true, ↓reduceIte, forall_const]
    split
    . next hnull =>
      have hfault := @pointsInto_fault path (Option Rule) (k.name ++ " criterion requires a rule") ""
      rw [String.append_empty] at hfault
      exact iff_of_true hfault (isReportable_of_isNull hnull)
    . rw [ends_map, ends_read_iff]

end Rule

/-! ## Loading -/

/-- What was read for a kind is what a check of this kind is made of. -/
theorem Check.ends_ofParts {P : Fault → Prop} {id name mandatory v : Value} {kind : Kind} {path : String}
    {rule : Option Rule} (h : kind.readRule path v = .ok rule) : Ends P (ofParts id name kind mandatory rule) := by
  have hread := Kind.readRule_eq_ok h
  cases kind with
  | checklist | manual => exact ends_ok _
  | automatic | conditional =>
    obtain ⟨r, -, rfl⟩ := hread
    exact ends_ok _

theorem CheckSource.ends_compile {source : CheckSource}
    (h : ∀ kind, Kind.ofValue? source.kind = some kind → kind.hasRule → Rule.IsReportable source.rule) :
    Ends (Fault.PointsInto source.path) source.compile := by
  unfold compile
  cases hkind : Kind.ofValue? source.kind with
  | none => exact Rule.pointsInto_fault
  | some kind =>
    refine ends_bind.mpr ⟨fun e he => ?_, fun rule hread => ?_⟩
    . exact (Rule.ends_readRule_iff.mpr (h kind hkind) e he).of_append
    . exact Check.ends_ofParts hread

def Criterion.hasRule (c : Criterion) : Bool :=
  (Kind.ofName? c.kind).any (·.hasRule)

/-- What has to be known of the rules of a stage so that the faults of loading it are reported. -/
def Store.HasReportable (s : Store) (stage : Int) : Prop :=
  -- A row with an integer of too many digits cannot even be fetched.
  ∀ c ∈ s.criteria, c.stage = stage → c.rule.isWritable ∧ (c.isActive → c.hasRule → Rule.IsReportable c.rule)

theorem Service.ends_loadChecks {s : Service} (hs : s.IsTrusty) {stage : Int} (h : s.store.HasReportable stage) :
    Ends (fun e => ∃ c ∈ s.store.criteria, c.stage = stage ∧ c.isActive ∧ e.PointsInto c.source.path)
      (Operation.loadChecks stage s).1 := by
  rw [(Operation.loadChecks_of_isTrusty hs stage).1]
  apply ends_mapM
  intro source hsource e he
  obtain ⟨c, hc, hstage, hactive, rfl⟩ := Store.mem_sourcesOf.mp hsource
  refine ⟨c, hc, hstage, hactive, @CheckSource.ends_compile c.source (fun kind hkind hrule => ?_) e he⟩
  refine (h c hc hstage).2 hactive ?_
  have hname : Kind.ofName? c.kind = some kind := hkind
  rw [Criterion.hasRule, hname]
  exact hrule

/-! ## Writing -/

namespace Configuration

open Transaction

section

variable {fields : Fields} {key : String} {v fallback : Value}

theorem getD_set_of_ne (h : key ≠ "rule") :
    (fields.set "rule" v).getD key fallback = fields.getD key fallback := by
  unfold Fields.getD
  rw [Fields.get?_set, if_neg h]

theorem getD_set_self : (fields.set "rule" v).getD "rule" fallback = v := by
  unfold Fields.getD
  rw [Fields.get?_set, if_pos rfl, Option.getD_some]

theorem get?_set_of_ne (h : key ≠ "rule") : (fields.set "rule" v).get? key = fields.get? key := by
  rw [Fields.get?_set, if_neg h]

theorem has_set_of_ne (h : key ≠ "rule") : (fields.set "rule" v).has key = fields.has key := by
  rw [Fields.has_set, decide_eq_false h, Bool.false_or]

theorem requireName_set : requireName (fields.set "rule" v) = requireName fields := by
  unfold requireName nameOf? textOf
  rw [getD_set_of_ne (by decide)]

theorem description_set : description (fields.set "rule" v) = description fields := by
  unfold description textOf
  rw [getD_set_of_ne (by decide)]

theorem ends_storedRule_iff {kind : Kind} :
    Ends (Fault.PointsInto "criterion.rule") (storedRule kind v) ↔ (kind.hasRule → Rule.IsReportable v) := by
  unfold storedRule
  rw [ends_bind, and_iff_left fun _ _ => ends_pure _, Rule.ends_readRule_iff]

/-- A document with a rule is reported or stored as far as its rule can be, if nothing else is wrong with it. -/
theorem ends_storedRule_bind_iff {α : Type} {kind : Kind} {f : Value → Except Fault α}
    (hf : ∀ rule, storedRule kind v = .ok rule → (Ends (Fault.PointsInto "criterion.rule") (f rule) ↔ rule.isWritable)) :
    Ends (Fault.PointsInto "criterion.rule") (storedRule kind v >>= f) ↔
      (kind.hasRule → Rule.IsStorable "criterion.rule" v) := by
  rw [ends_bind, ends_storedRule_iff]
  cases hk : kind.hasRule with
  | false =>
    refine iff_of_true ⟨nofun, fun rule hrule => (hf rule hrule).mpr ?_⟩ nofun
    have hstored := storedRule_eq_ok hrule
    rw [hk, if_neg Bool.false_ne_true] at hstored
    rw [hstored]
    rfl
  | true =>
    simp only [forall_const]
    refine and_congr_right fun _ => ⟨fun h r hread => ?_, fun h rule hrule => (hf rule hrule).mpr ?_⟩
    . have hnull : v.isNull = false := by
        obtain ⟨fields, rfl⟩ := Rule.exists_fields_of_read hread
        rfl
      have hrule : storedRule kind v = .ok r.toValue := by
        simp [storedRule, Kind.readRule, hk, hnull, hread, Except.map, bind, Except.bind, pure, Except.pure,
          Value.ofOption]
      exact (hf _ hrule).mp (h _ hrule)
    . have hstored := storedRule_eq_ok hrule
      rw [hk, if_pos rfl] at hstored
      obtain ⟨r, hread, rfl⟩ := hstored
      exact h r hread

/-- What is left of a reading when all but the rule can be stored. -/
theorem ends_checkColumns_bind_iff {α : Type} {P : Fault → Prop} {kind : Kind} {name described : String} {rule rule' : Value}
    {x : Except Fault α} (hcheck : checkColumns name described rule' = .ok ()) (hrule : storedRule kind v = .ok rule)
    (hx : Ends P x) (hP : ¬P (.broken .unprepared)) :
    Ends P (checkColumns name described rule >>= fun _ => x) ↔ rule.isWritable := by
  have htexts := (checkColumns_eq_ok.mp hcheck).2
  by_cases hwritable : rule.isWritable
  . have hdocument := Value.isDocument_of_isJson (isJson_of_storedRule hrule)
    rw [checkColumns_eq_ok.mpr ⟨⟨hdocument, hwritable⟩, htexts⟩]
    exact iff_of_true hx hwritable
  . have hfail : checkColumns name described rule = .error (.broken .unprepared) := by
      unfold checkColumns Column.checkDocument
      rw [eq_false_of_ne_true hwritable, Bool.and_false]
      rfl
    rw [hfail]
    exact iff_of_false (fun h => hP (h _ rfl)) hwritable

end

section

variable {a : Author} {fields : Fields} {given x : Value} {s s' : Store}

theorem not_pointsInto_broken {path : String} {b : Breakdown} : ¬Fault.PointsInto path (.broken b) :=
  nofun

/-- With another rule a document is read as before up to the rule, and as before again from there on. -/
theorem ends_readCriterion_iff {stage : Stage} {c : Criterion}
    (hgiven : readCriterion a stage (.object (fields.set "rule" given)) s = .ok c) :
    Ends (Fault.PointsInto "criterion.rule") (readCriterion a stage (.object (fields.set "rule" x)) s) ↔
      (c.hasRule → Rule.IsStorable "criterion.rule" x) := by
  unfold readCriterion at hgiven ⊢
  simp only [Value.members, ok_bind, requireName_set, description_set, getD_set_self,
    getD_set_of_ne (show "kind" ≠ "rule" by decide), getD_set_of_ne (show "sort_order" ≠ "rule" by decide)] at hgiven ⊢
  simp only [bind_eq_ok, pure, Except.pure, Except.ok.injEq] at hgiven
  obtain ⟨kind, hkind, name, hname, _, -, place, hplace, _, htexts, _, hcheck, rfl⟩ := hgiven
  rw [hkind, ok_bind, hname, ok_bind, ends_storedRule_bind_iff, Criterion.hasRule, Kind.ofName?_name]
  . rfl
  . intro rule hrule
    rw [hplace, ok_bind, hcheck]
    exact ends_checkColumns_bind_iff htexts hrule (ends_ok _) not_pointsInto_broken

theorem askedName_set {c : Criterion} {v : Value} : askedName c (fields.set "rule" v) = askedName c fields := by
  rw [askedName, has_set_of_ne (by decide), requireName_set, askedName]

theorem askedDescription_set {c : Criterion} {v : Value} :
    askedDescription c (fields.set "rule" v) = askedDescription c fields := by
  rw [askedDescription, has_set_of_ne (by decide), description_set, askedDescription]

theorem askedPlace_set {c : Criterion} {v : Value} : askedPlace c (fields.set "rule" v) = askedPlace c fields := by
  rw [askedPlace, get?_set_of_ne (by decide), askedPlace]

theorem ends_readUpdate_iff {c w : Criterion} (hgiven : readUpdate c (fields.set "rule" given) = .ok w) :
    Ends (Fault.PointsInto "criterion.rule") (readUpdate c (fields.set "rule" x)) ↔
      (w.hasRule → Rule.IsStorable "criterion.rule" x) := by
  rw [readUpdate_eq] at hgiven ⊢
  simp only [askedName_set, askedDescription_set, askedPlace_set, getD_set_self,
    getD_set_of_ne (show "kind" ≠ "rule" by decide)] at hgiven ⊢
  simp only [bind_eq_ok, pure, Except.pure, Except.ok.injEq] at hgiven
  obtain ⟨kind, hkind, _, -, name, hname, place, hplace, _, htexts, kept, hkept, rfl⟩ := hgiven
  rw [hkind, ok_bind, ends_storedRule_bind_iff, Criterion.hasRule, Kind.ofName?_name]
  . rfl
  . intro rule hrule
    rw [hname, ok_bind, hplace, ok_bind, hkept]
    exact ends_checkColumns_bind_iff htexts hrule (ends_ok _) not_pointsInto_broken

/-- A transaction fails as the reading that it starts with, if whatever was read can be written. -/
theorem ends_of_reading {α β : Type} {P : Fault → Prop} {x : Except Fault α} {t : Transaction β} {f : α → Transaction β}
    (hok : ∀ b, x = .ok b → t s = f b s) (herror : ∀ e, x = .error e → t s = .error e)
    (hwrites : ∀ b, ∃ r, f b s = .ok r) : Ends P (t s) ↔ Ends P x := by
  cases x with
  | ok b =>
    obtain ⟨r, hr⟩ := hwrites b
    rw [hok b rfl, hr]
    exact iff_of_true (ends_ok r) (ends_ok b)
  | error e => rw [herror e rfl, ends_error, ends_error]

theorem ends_addCriterion_iff {stage : Stage} {c : Criterion}
    (hgiven : addCriterion a stage (.object (fields.set "rule" given)) s = .ok (c, s')) :
    Ends (Fault.PointsInto "criterion.rule") (addCriterion a stage (.object (fields.set "rule" x)) s) ↔
      (c.hasRule → Rule.IsStorable "criterion.rule" x) := by
  simp only [addCriterion, recordCreation, Transaction.bind_eq_ok, reading_eq_ok, record_eq_ok, pure_eq_ok] at hgiven
  obtain ⟨_, _, ⟨hread, -⟩, _, _, -, _, _, ⟨name, hname, -⟩, rfl, -⟩ := hgiven
  rw [← ends_readCriterion_iff hread]
  refine ends_of_reading (fun _ hok => reading_bind_of_ok hok _) (fun _ herror => reading_bind_of_error herror _) ?_
  intro c
  have hadd : Transaction.addCriterion c s = .ok ((), { s with criteria := s.criteria ++ [c] }) := rfl
  rw [bind_of_ok hadd, recordCreation, bind_of_ok (@record_eq_ok _ _ () _ _ |>.mpr ⟨name, hname, rfl⟩)]
  exact ⟨_, rfl⟩

theorem ends_updateCriterion_iff {c row : Criterion} {shared : Bool}
    (hgiven : updateCriterion a c (.object (fields.set "rule" given)) shared s = .ok (row, s')) :
    Ends (Fault.PointsInto "criterion.rule") (updateCriterion a c (.object (fields.set "rule" x)) shared s) ↔
      (row.hasRule → Rule.IsStorable "criterion.rule" x) := by
  simp only [updateCriterion, putCriterion, Transaction.bind_eq_ok, lift_eq_ok, reading_eq_ok, modify_eq_ok,
    record_eq_ok, pure_eq_ok] at hgiven
  obtain ⟨_, _, ⟨hmembers, rfl⟩, w, _, ⟨hread, rfl⟩, _, _, rfl, pipeline, _, ⟨hfollow, rfl⟩, _, _, ⟨name, hname, -⟩,
    rfl, -⟩ := hgiven
  cases hmembers
  change _ ↔ (w.hasRule → Rule.IsStorable "criterion.rule" x)
  rw [← ends_readUpdate_iff hread]
  unfold updateCriterion
  rw [lift_bind_of_ok (show Value.members _ = .ok (fields.set "rule" x) from rfl)]
  refine ends_of_reading (fun _ hok => lift_bind_of_ok hok _) (fun _ herror => lift_bind_of_error herror _) ?_
  -- The row goes among the criteria, so that the stage of the old one is found as before.
  intro w'
  rw [putCriterion, bind_of_ok (@modify_eq_ok _ _ _ () |>.mpr rfl), reading_bind_of_ok hfollow,
    bind_of_ok (@record_eq_ok _ _ () _ _ |>.mpr ⟨name, hname, rfl⟩)]
  exact ⟨_, rfl⟩

end

end Configuration

/-! ## Reports of a service -/

namespace Administration

open Operation

variable {a : Configuration.Author} {id given x : Value} {fields : Fields} {s : Service} {c : Criterion}

theorem fst_addCriterion (data : Value) : (addCriterion a id data s).1 = (do
    let stage ← s.store.stage id
    (Configuration.addCriterion a stage data s.store).map (·.1)) := by
  rw [addCriterion_eq, reading_bind_eq]
  cases s.store.stage id with
  | error e => rfl
  | ok stage =>
    dsimp only
    rw [commit_bind_eq, ok_bind]
    cases Configuration.addCriterion a stage data s.store <;> rfl

theorem fst_updateCriterion (data : Value) (shared : Bool) : (updateCriterion a id data shared s).1 = (do
    let c ← s.store.criterion id
    (Configuration.updateCriterion a c data shared s.store).map (·.1)) := by
  rw [updateCriterion_eq, reading_bind_eq]
  cases s.store.criterion id with
  | error e => rfl
  | ok c =>
    dsimp only
    rw [commit_bind_eq, ok_bind]
    cases Configuration.updateCriterion a c data shared s.store <;> rfl

theorem ends_addCriterion_iff (hgiven : (addCriterion a id (.object (fields.set "rule" given)) s).1 = .ok c) :
    Ends (Fault.PointsInto "criterion.rule") (addCriterion a id (.object (fields.set "rule" x)) s).1 ↔
      (c.hasRule → Rule.IsStorable "criterion.rule" x) := by
  rw [fst_addCriterion] at hgiven ⊢
  simp only [bind_eq_ok, map_eq_ok] at hgiven
  obtain ⟨stage, hstage, ⟨_, store⟩, hadd, rfl⟩ := hgiven
  rw [hstage, ok_bind, ends_map]
  exact Configuration.ends_addCriterion_iff hadd

theorem ends_updateCriterion_iff {shared : Bool}
    (hgiven : (updateCriterion a id (.object (fields.set "rule" given)) shared s).1 = .ok c) :
    Ends (Fault.PointsInto "criterion.rule") (updateCriterion a id (.object (fields.set "rule" x)) shared s).1 ↔
      (c.hasRule → Rule.IsStorable "criterion.rule" x) := by
  rw [fst_updateCriterion] at hgiven ⊢
  simp only [bind_eq_ok, map_eq_ok] at hgiven
  obtain ⟨old, hold, ⟨_, store⟩, hupdate, rfl⟩ := hgiven
  rw [hold, ok_bind, ends_map]
  exact Configuration.ends_updateCriterion_iff hupdate

end Administration

namespace Rule

open Administration Service

/--
A value that is read as a rule fails as a misconfigured one only, with a path that leads into it, exactly if its first
flaw is not a value in the place of a word that cannot be looked up or shown. The same is true of documents for criteria
that would be accepted with another rule, if the form that is stored can be written. The loading of a stage fails in no
other way, after any history, if that is true of its rules.
-/
theorem malformed_reported (x : Value) (events : List Event) :
    (∀ path, Ends (Fault.PointsInto path) (read path x) ↔ IsReportable x) ∧
    (∀ stage, (history events).store.HasReportable stage →
      Ends (fun e => ∃ c ∈ (history events).store.criteria, c.stage = stage ∧ c.isActive ∧ e.PointsInto c.source.path)
        (Operation.loadChecks stage (history events)).1) ∧
    (∀ a id fields given c s, (addCriterion a id (.object (Fields.set fields "rule" given)) s).1 = .ok c →
      (Ends (Fault.PointsInto "criterion.rule") (addCriterion a id (.object (Fields.set fields "rule" x)) s).1 ↔
        (c.hasRule → IsStorable "criterion.rule" x))) ∧
    (∀ a id fields shared given c s, (updateCriterion a id (.object (Fields.set fields "rule" given)) shared s).1 = .ok c →
      (Ends (Fault.PointsInto "criterion.rule") (updateCriterion a id (.object (Fields.set fields "rule" x)) shared s).1 ↔
        (c.hasRule → IsStorable "criterion.rule" x))) := by
  refine ⟨fun path => ends_read_iff, ?_, ?_, ?_⟩
  . intro stage h
    exact ends_loadChecks (trusty_history events).2 h
  . intro a id fields given c s hgiven
    exact ends_addCriterion_iff hgiven
  . intro a id fields shared given c s hgiven
    exact ends_updateCriterion_iff hgiven

/-- The number 3 in the place of a rule is reported by each of the four. -/
theorem malformed_reported_number :
    Ends (Fault.PointsInto "rule") (read "rule" (.int 3)) ∧
    (∃ rows, rows.map (·.rule) = [.int 3] ∧ ∃ documents, let s := history [.rewrite rows documents]
      Ends (fun e => ∃ c ∈ s.store.criteria, c.stage = 1 ∧ c.isActive ∧ e.PointsInto c.source.path)
        (Operation.loadChecks 1 s).1) ∧
    Ends (Fault.PointsInto "criterion.rule") (addCriterion admin (.int 1)
      (.object [("kind", .text "automatic"), ("name", .text "Budget"), ("rule", .int 3)]) (guarded (.int 75))).1 ∧
    Ends (Fault.PointsInto "criterion.rule")
      (updateCriterion admin (.int 1) (.object [("rule", .int 3)]) false (guarded (.int 75))).1 := by
  let broken : Criterion := { scoreGate .null with rule := .int 3 }
  have documents : ∀ c ∈ [broken], c.rule.isJson := by decide
  obtain ⟨hread, hload, hadd, hupdate⟩ := malformed_reported (.int 3) [.rewrite [broken] documents]
  have hnumber : IsReportable (.int 3) := (hread "rule").mp (ends_error.mpr ⟨_, "", rfl⟩)
  have hstorable : IsStorable "criterion.rule" (.int 3) := ⟨hnumber, nofun⟩
  refine ⟨(hread "rule").mpr hnumber, ⟨[broken], rfl, documents, hload 1 ?_⟩, ?_, ?_⟩
  . intro c hc _
    obtain rfl := List.mem_singleton.mp hc
    exact ⟨by decide +kernel, fun _ _ => hnumber⟩
  . have hok : (addCriterion admin (.int 1) (.object (Fields.set [("kind", .text "automatic"), ("name", .text "Budget")]
        "rule" (scoreRule (.int 75)))) (guarded (.int 75))).1.isOk := by
      decide +kernel
    obtain ⟨c, hc⟩ := exists_of_isOk hok
    exact (hadd _ _ _ _ _ _ hc).mpr fun _ => hstorable
  . have hok : (updateCriterion admin (.int 1) (.object (Fields.set [] "rule" (scoreRule (.int 80)))) false
        (guarded (.int 75))).1.isOk := by
      decide +kernel
    obtain ⟨c, hc⟩ := exists_of_isOk hok
    exact (hupdate _ _ _ _ _ _ _ hc).mpr fun _ => hstorable

/-- A list as a domain cannot be looked up among the names of domains. -/
theorem unhashable_unreported : ¬∀ x, Ends (Fault.PointsInto "rule") (read "rule" x) := by
  intro h
  let x : Value := .object [("domain", .list [.text "x"]), ("field", .text "a"), ("operator", .text "exists")]
  have hread : read "rule" x = .error (.broken .wrongKind) := rfl
  obtain ⟨reason, rest, hrefused⟩ := h x _ hread
  cases hrefused

end Rule

end StageGate
