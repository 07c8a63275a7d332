import StageGate.Proofs.Numbers

/-!
This module contains what is known about the rows of a store once one of them is added or given new
columns: their ids, the stages that are found through them, and how many active entries a stage holds.
-/

namespace StageGate.Store

/-! ## Ids -/

theorem lt_nextId {ids : List Int} {i : Int} (h : i ∈ ids) : i < nextId ids := by
  unfold nextId
  cases hm : ids.max? with
  | none =>
    rw [List.max?_eq_none_iff] at hm
    simp [hm] at h
  | some m =>
    rw [List.max?_eq_some_iff] at hm
    have := hm.2 i h
    simp only [Option.getD_some]
    omega

theorem pairwise_lt_concat {ids : List Int} (h : ids.Pairwise (· < ·)) :
    (ids ++ [nextId ids]).Pairwise (· < ·) := by
  rw [List.pairwise_append]
  refine ⟨h, by simp, ?_⟩
  intro i hi j hj
  rw [List.mem_singleton] at hj
  rw [hj]
  exact lt_nextId hi

theorem eq_of_id_eq {α : Type} {id : α → Int} {as : List α} (h : (as.map id).Pairwise (· < ·)) {a b : α}
    (ha : a ∈ as) (hb : b ∈ as) (hid : id a = id b) : a = b := by
  induction as with
  | nil => simp at ha
  | cons x xs ih =>
    simp only [List.map_cons, List.pairwise_cons, List.mem_map, forall_exists_index, and_imp,
      forall_apply_eq_imp_iff₂] at h
    simp only [List.mem_cons] at ha hb
    rcases ha with rfl | ha <;> rcases hb with rfl | hb
    . rfl
    . have := h.1 b hb
      omega
    . have := h.1 a ha
      omega
    . exact ih h.2 ha hb

/-- A row that is put in the place of the one with its id leaves the ids as they are. -/
theorem map_id_put {α : Type} (id : α → Int) (as : List α) (new : α) :
    (as.map fun a => if id a = id new then new else a).map id = as.map id := by
  rw [List.map_map]
  apply List.map_congr_left
  intro a _
  simp only [Function.comp_apply]
  split
  . next h => exact h.symm
  . rfl

theorem length_le_one {α : Type} {id : α → Int} {as : List α} (h : (as.map id).Pairwise (· < ·))
    (hsame : ∀ a ∈ as, ∀ b ∈ as, a = b) : as.length ≤ 1 := by
  cases as with
  | nil => simp
  | cons a as =>
    cases as with
    | nil => simp
    | cons b bs =>
      -- Two of them would be the same, but ids rise.
      rw [List.map_cons, List.map_cons, List.pairwise_cons] at h
      have hlt := h.1 (id b) (by simp)
      rw [hsame a (by simp) b (by simp)] at hlt
      omega

theorem find?_id_eq_some {α : Type} {id : α → Int} {as : List α} (h : (as.map id).Pairwise (· < ·)) {a : α}
    {i : Int} : as.find? (id · = i) = some a ↔ a ∈ as ∧ id a = i := by
  constructor
  . intro hf
    have := List.find?_some hf
    exact ⟨List.mem_of_find?_eq_some hf, by simpa using this⟩
  . rintro ⟨ha, hi⟩
    cases hf : as.find? (id · = i) with
    | none =>
      rw [List.find?_eq_none] at hf
      simpa [hi] using hf a ha
    | some b =>
      have hb : id b = i := by simpa using List.find?_some hf
      rw [eq_of_id_eq h (List.mem_of_find?_eq_some hf) ha (hb.trans hi.symm)]

/-! ## Rows that values name -/

@[simp]
theorem follow_eq_ok {α : Type} {row : Option α} {a : α} : follow row = .ok a ↔ row = some a := by
  cases row <;> simp [follow]

theorem row?_of_seek {α : Type} {row? : Int → Option α} {id : Value} {a : α}
    (h : seek row? id = .ok (some a)) :
    ∃ v n, identity id = .ok v ∧ rowId? v = .ok (some n) ∧ row? n = some a := by
  unfold seek at h
  simp only [bind_eq_ok, pure, Except.pure, Except.ok.injEq, Option.bind_eq_some_iff] at h
  obtain ⟨v, hv, n?, hn, n, rfl, ha⟩ := h
  exact ⟨v, n, hv, hn, ha⟩

theorem identity_of_isKey {v : Value} (h : v.isKey) : identity v = .ok v := by
  cases v with
  | list vs => simp [Value.isKey] at h
  | object fields => simp [Value.isKey] at h
  | _ => simp [identity, identity.usable, h]

theorem row?_of_require {α : Type} {resource : String} {row? : Int → Option α} {id : Value} {a : α}
    (h : require resource row? id = .ok a) :
    ∃ v n, identity id = .ok v ∧ rowId? v = .ok (some n) ∧ row? n = some a := by
  unfold require at h
  rw [bind_eq_ok] at h
  obtain ⟨a?, ha, h⟩ := h
  split at h
  . cases h
    exact row?_of_seek ha
  . cases h

theorem checkInt_of_rowId? {v : Value} {n : Int} (h : rowId? v = .ok (some n)) :
    Column.checkInt n = .ok () := by
  unfold rowId? at h
  rw [bind_eq_ok] at h
  obtain ⟨w, hw, h⟩ := h
  split at h
  . cases h
    exact Column.checkInt_of_number hw
  . cases h

theorem rowId?_of_pipeline {s : Store} {id : Value} {p : Pipeline} (hkey : id.isKey)
    (h : s.pipeline id = .ok p) : rowId? id = .ok (some p.id) := by
  obtain ⟨v, n, hv, hn, hp⟩ := row?_of_require h
  rw [identity_of_isKey hkey] at hv
  cases hv
  have : p.id = n := by simpa using List.find?_some hp
  rw [hn, this]

theorem rowId?_int {n : Int} (h : Column.checkInt n = .ok ()) : rowId? (.int n) = .ok (some n) := by
  simp [rowId?, Column.number, h, bind, Except.bind, pure, Except.pure]

theorem rowId?_of_unfit {n : Int} (h : Column.checkInt n ≠ .ok ()) :
    rowId? (.int n) = .error (.broken .tooLarge) := by
  simp [rowId?, Column.number, Column.checkInt_eq_error h, bind, Except.bind]

theorem eq_of_rowId?_int {n m : Int} (h : rowId? (.int n) = .ok (some m)) : n = m := by
  simp only [rowId?, Column.number] at h
  cases hc : Column.checkInt n <;> rw [hc] at h <;> cases h
  rfl

theorem seek_int {α : Type} {row? : Int → Option α} {n : Int} (h : Column.checkInt n = .ok ()) :
    seek row? (.int n) = .ok (row? n) := by
  have hid : identity (.int n) = .ok (.int n) := rfl
  simp [seek, hid, rowId?_int h, bind, Except.bind, pure, Except.pure]

theorem seek_of_unfit {α : Type} {row? : Int → Option α} {n : Int} (h : Column.checkInt n ≠ .ok ()) :
    seek row? (.int n) = .error (.broken .tooLarge) := by
  have hid : identity (.int n) = .ok (.int n) := rfl
  simp [seek, hid, rowId?_of_unfit h, bind, Except.bind]

theorem require_of_unfit {α : Type} {resource : String} {row? : Int → Option α} {n : Int}
    (h : Column.checkInt n ≠ .ok ()) : require resource row? (.int n) = .error (.broken .tooLarge) := by
  unfold require
  rw [seek_of_unfit h]
  rfl

theorem require_int {α : Type} {resource : String} {row? : Int → Option α} {n : Int}
    (h : Column.checkInt n = .ok ()) : require resource row? (.int n) =
      match row? n with
      | some a => .ok a
      | none => .error (.refused (.notFound resource (.int n))) := by
  unfold require
  rw [seek_int h]
  cases row? n <;> rfl

theorem mem_of_entry {s : Store} {id : Value} {e : Entry} (h : s.entry id = .ok e) : e ∈ s.entries := by
  obtain ⟨_, _, _, _, h⟩ := row?_of_require h
  exact List.mem_of_find?_eq_some h

theorem mem_of_pipeline {s : Store} {id : Value} {p : Pipeline} (h : s.pipeline id = .ok p) :
    p ∈ s.pipelines := by
  obtain ⟨_, _, _, _, h⟩ := row?_of_require h
  exact List.mem_of_find?_eq_some h

theorem exists_find?_of_mem_map {α : Type} {f : α → Int} {as : List α} {n : Int} (h : n ∈ as.map f) :
    ∃ a ∈ as, as.find? (f · = n) = some a := by
  obtain ⟨a, ha, hid⟩ := List.mem_map.mp h
  have hsome : (as.find? (f · = n)).isSome := List.find?_isSome.mpr ⟨a, ha, by simpa using hid⟩
  obtain ⟨b, hb⟩ := Option.isSome_iff_exists.mp hsome
  exact ⟨b, List.mem_of_find?_eq_some hb, hb⟩

theorem mem_of_stage {s : Store} {id : Value} {stage : Stage} (h : s.stage id = .ok stage) : stage ∈ s.stages := by
  obtain ⟨_, _, _, _, h⟩ := row?_of_require h
  exact List.mem_of_find?_eq_some h

theorem mem_of_criterion {s : Store} {id : Value} {c : Criterion} (h : s.criterion id = .ok c) :
    c ∈ s.criteria := by
  obtain ⟨_, _, _, _, h⟩ := row?_of_require h
  exact List.mem_of_find?_eq_some h

/-! ## Added rows and new columns -/

section

variable (s : Store) (e : Entry) (r : AuditRow)

@[simp] theorem addEntry_entries : (s.addEntry e).entries = s.entries ++ [e] := rfl

@[simp] theorem addEntry_stages : (s.addEntry e).stages = s.stages := rfl

@[simp] theorem putEntry_stages : (s.putEntry e).stages = s.stages := rfl

@[simp] theorem putEntry_audit : (s.putEntry e).audit = s.audit := rfl

@[simp] theorem addAudit_entries : (s.addAudit r).entries = s.entries := rfl

@[simp] theorem addAudit_stages : (s.addAudit r).stages = s.stages := rfl

@[simp] theorem addAudit_audit : (s.addAudit r).audit = s.audit ++ [r] := rfl

@[simp]
theorem putEntry_ids : (s.putEntry e).entries.map (·.id) = s.entries.map (·.id) :=
  map_id_put (·.id) s.entries e

@[simp]
theorem length_putEntry : (s.putEntry e).entries.length = s.entries.length := by
  simp [putEntry]

theorem mem_putEntry {s : Store} {e x : Entry} (h : x ∈ (s.putEntry e).entries) :
    x = e ∨ x ∈ s.entries ∧ x.id ≠ e.id := by
  unfold putEntry at h
  rw [List.mem_map] at h
  obtain ⟨y, hy, hx⟩ := h
  split at hx
  . exact .inl hx.symm
  . next hne =>
    subst hx
    exact .inr ⟨hy, hne⟩

theorem mem_putEntry_of_ne {s : Store} {e x : Entry} (h : x ∈ s.entries) (hne : x.id ≠ e.id) :
    x ∈ (s.putEntry e).entries := by
  unfold putEntry
  rw [List.mem_map]
  exact ⟨x, h, by simp [hne]⟩

theorem mem_putEntry_self {s : Store} {e x : Entry} (h : x ∈ s.entries) (hid : x.id = e.id) :
    e ∈ (s.putEntry e).entries := by
  unfold putEntry
  rw [List.mem_map]
  exact ⟨x, h, by simp [hid]⟩

end

/-! ## Counting entries -/

theorem countP_lt_of_imp {α : Type} {p q : α → Bool} {as : List α} {a : α} (h : ∀ x, p x → q x) (ha : a ∈ as)
    (hp : p a = false) (hq : q a) : as.countP p < as.countP q := by
  obtain ⟨front, back, rfl⟩ := List.append_of_mem ha
  have hfront : front.countP p ≤ front.countP q := List.countP_mono_left fun x _ => h x
  have hback : back.countP p ≤ back.countP q := List.countP_mono_left fun x _ => h x
  simp only [List.countP_append, List.countP_cons, hp, hq, Bool.false_eq_true, ↓reduceIte]
  omega

theorem countP_put {p : Entry → Bool} {es : List Entry} {e new : Entry}
    (hids : (es.map (·.id)).Pairwise (· < ·)) (he : e ∈ es) (hid : new.id = e.id) :
    (es.map fun x => if x.id = new.id then new else x).countP p + (if p e then 1 else 0) =
      es.countP p + if p new then 1 else 0 := by
  -- By induction on the entries: ids rise, so behind the one that is put nothing else is replaced.
  induction es with
  | nil => simp at he
  | cons x xs ih =>
    rw [List.map_cons, List.pairwise_cons] at hids
    obtain ⟨hlt, hids⟩ := hids
    have hlt : ∀ y ∈ xs, x.id < y.id := fun y hy => hlt y.id (List.mem_map_of_mem hy)
    rw [List.map_cons, List.countP_cons, List.countP_cons]
    rcases List.mem_cons.mp he with rfl | he
    . have hrest : (xs.map fun y => if y.id = new.id then new else y) = xs := by
        conv => rhs; rw [← List.map_id xs]
        apply List.map_congr_left
        intro y hy
        have := hlt y hy
        have hne : y.id ≠ new.id := by omega
        simp [hne]
      rw [hrest]
      simp only [hid, ↓reduceIte]
      omega
    . have := hlt e he
      have hne : x.id ≠ new.id := by omega
      have := ih hids he
      simp only [hne, ↓reduceIte]
      omega

theorem occupancy_putEntry {s : Store} {e new : Entry} (hids : (s.entries.map (·.id)).Pairwise (· < ·))
    (he : e ∈ s.entries) (hid : new.id = e.id) (stage : Int) :
    (s.putEntry new).occupancy stage + (if e.stage = stage && e.isActive then 1 else 0) =
      s.occupancy stage + if new.stage = stage && new.isActive then 1 else 0 :=
  countP_put hids he hid

theorem occupancy_addEntry (s : Store) (e : Entry) (stage : Int) :
    (s.addEntry e).occupancy stage =
      s.occupancy stage + if e.stage = stage && e.isActive then 1 else 0 := by
  unfold occupancy
  rw [addEntry_entries, List.countP_append, List.countP_singleton]

@[simp]
theorem occupancy_addAudit (s : Store) (r : AuditRow) (stage : Int) :
    (s.addAudit r).occupancy stage = s.occupancy stage :=
  rfl

/-! ## Rows that the store takes -/

theorem admits_iff {s : Store} {e : Entry} : s.admits e ↔ (e.isActive → ∀ x ∈ s.entries,
    x.isActive → x.lead = e.lead → x.pipeline = e.pipeline → x.id = e.id) := by
  unfold admits
  cases e.isActive with
  | false => simp
  | true =>
    simp only [Bool.not_true, Bool.false_or, List.all_eq_true, Bool.or_eq_true, decide_eq_true_eq,
      Bool.not_eq_true', forall_const]
    grind

/-- A row can take the place of one that the store takes if it is of the same lead in the same pipeline. -/
theorem admits_of_same {s : Store} {e new : Entry} (h : s.admits e) (hid : new.id = e.id) (hlead : new.lead = e.lead)
    (hpipeline : new.pipeline = e.pipeline) (hactive : new.isActive → e.isActive) : s.admits new := by
  rw [admits_iff] at *
  rw [hid, hlead, hpipeline]
  exact fun ha => h (hactive ha)

theorem activeEntryIn?_eq_none {s : Store} {lead pipeline : Int} :
    s.activeEntryIn? lead pipeline = none ↔
      ∀ x ∈ s.entries, x.isActive → x.lead = lead → x.pipeline ≠ pipeline := by
  unfold activeEntryIn?
  rw [List.find?_eq_none]
  grind

/-! ## Stages -/

theorem mem_of_mem_stagesOf {s : Store} {pipeline : Int} {stage : Stage} (h : stage ∈ s.stagesOf pipeline) :
    stage ∈ s.stages ∧ stage.pipeline = pipeline := by
  simpa [stagesOf] using h

theorem mem_of_head?_stagesOf {s : Store} {pipeline : Int} {first : Stage}
    (h : (s.stagesOf pipeline).head? = some first) : first ∈ s.stages ∧ first.pipeline = pipeline :=
  mem_of_mem_stagesOf (List.mem_of_head? h)

theorem view_congr {s s' : Store} (h : s'.stages = s.stages) (window : Value) (now : Instant) (e : Entry) :
    s'.view window now e = s.view window now e := by
  simp [view, healthOf, stage?, h]

theorem entry_of_view {s : Store} {window : Value} {now : Instant} {e : Entry} {v : EntryView}
    (h : s.view window now e = .ok v) : v.entry = e := by
  unfold view at h
  dsimp only at h
  split at h <;> (obtain ⟨_, -, h⟩ := bind_eq_ok.mp h; cases h; rfl)

theorem exists_view {s : Store} {window : Value} {now : Instant} {e : Entry}
    (h : e.isActive → ∃ stage health, s.stage? e.stage = some stage ∧
      Health.of e.enteredAt now stage.deadline window = .ok health) :
    ∃ v, s.view window now e = .ok v := by
  unfold view
  split
  . next ha =>
    obtain ⟨stage, health, hs, hh⟩ := h ha
    have hhealth : s.healthOf window now e = .ok health := by
      unfold healthOf
      rw [hs]
      exact hh
    rw [healthAt_universal, hhealth]
    exact ⟨_, rfl⟩
  . exact ⟨_, rfl⟩

end StageGate.Store
