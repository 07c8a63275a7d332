import StageGate.Proofs.Documents
import StageGate.Proofs.Transactions

/-!
This module contains what becomes of the columns of a row that is written as it is given, and of those of a lead in
particular: a column holds what is kept of the member of its name, or what it holds from the beginning.
-/

namespace StageGate

/-! ## Rows that are put -/

namespace Row

variable {α : Type} {idOf : α → Int} {row : α}

theorem find?_insert {rows : List α} (h : ∀ r ∈ rows, idOf r ≠ idOf row) :
    (insert idOf row rows).find? (fun r => idOf r = idOf row) = some row := by
  induction rows with
  | nil => simp [insert]
  | cons r rows ih =>
    rw [List.forall_mem_cons] at h
    unfold insert
    split
    . simp
    . rw [List.find?_cons_of_neg (by simpa using h.1), ih h.2]

theorem find?_put {old : Int} (h : idOf row = old) (rows : List α) :
    (put idOf old row rows).find? (fun r => idOf r = old) = some row := by
  subst h
  apply find?_insert
  intro r hr
  simpa using (List.mem_filter.mp hr).2

theorem of_mem_put {old : Int} {rows : List α} {r : α} (h : r ∈ put idOf old row rows) : r = row ∨ r ∈ rows := by
  rcases mem_insert.mp h with h | h
  . exact .inl h
  . exact .inr (List.mem_filter.mp h).1

end Row

/-! ## Columns that are kept -/

namespace Direct

theorem nodup_attributes (table : Table) : ((attributes table).map (·.name)).Nodup := by
  cases table <;> decide

variable {table : Table} {values kept : Fields} {a : Attribute}

theorem eq_of_mem_attributes {b : Attribute} (ha : a ∈ attributes table) (hb : b ∈ attributes table)
    (h : a.name = b.name) : a = b :=
  List.inj_on_of_nodup_map (nodup_attributes table) ha hb h

theorem mem_of_keepAll (h : keepAll table values = .ok kept) {key : String} {w : Value} :
    (key, w) ∈ kept ↔ ∃ a ∈ attributes table, a.name = key ∧ ∃ v, values.get? key = some v ∧ keep a.kind v = .ok w := by
  simp only [keepAll, bind_eq_ok] at h
  obtain ⟨_, -, h⟩ := h
  rw [mem_iff_of_mapM_eq_ok h]
  simp only [List.mem_filterMap, Option.map_eq_some_iff, bind_eq_ok, pure, Except.pure, Except.ok.injEq]
  constructor
  . rintro ⟨_, ⟨a, ha, v, hv, rfl⟩, w', hw, hpair⟩
    cases hpair
    exact ⟨a, ha, rfl, v, hv, hw⟩
  . rintro ⟨a, ha, rfl, v, hv, hw⟩
    exact ⟨(a, v), ⟨a, ha, v, hv, rfl⟩, w, hw, rfl⟩

theorem exists_keep (h : keepAll table values = .ok kept) (ha : a ∈ attributes table) {v : Value}
    (hv : values.get? a.name = some v) : ∃ w, keep a.kind v = .ok w := by
  simp only [keepAll, bind_eq_ok] at h
  obtain ⟨_, -, h⟩ := h
  have hmem : (a, v) ∈ (attributes table).filterMap fun a => (values.get? a.name).map (a, ·) := by
    rw [List.mem_filterMap]
    exact ⟨a, ha, by rw [hv]; rfl⟩
  obtain ⟨_, -, hkeep⟩ := exists_of_mapM_eq_ok h hmem
  rw [bind_eq_ok] at hkeep
  exact hkeep.imp fun _ h => h.1

theorem get?_of_keepAll (h : keepAll table values = .ok kept) (ha : a ∈ attributes table) {v w : Value}
    (hv : values.get? a.name = some v) (hw : keep a.kind v = .ok w) : Fields.get? kept.reverse a.name = some w := by
  have hmem : (a.name, w) ∈ kept := (mem_of_keepAll h).mpr ⟨a, ha, rfl, v, hv, hw⟩
  cases hfound : Fields.get? kept.reverse a.name with
  | none => exact absurd (List.mem_reverse.mpr hmem) (Fields.get?_eq_none.mp hfound w)
  | some w' =>
    have hmem' : (a.name, w') ∈ kept := List.mem_reverse.mp (Fields.mem_of_get? hfound)
    obtain ⟨b, hb, hname, v', hv', hw'⟩ := (mem_of_keepAll h).mp hmem'
    rw [eq_of_mem_attributes hb ha hname] at hw'
    rw [hv, Option.some.injEq] at hv'
    rw [← hv', hw, Except.ok.injEq] at hw'
    rw [hw']

theorem get?_of_keepAll_none (h : keepAll table values = .ok kept) {key : String} (hv : values.get? key = none) :
    Fields.get? kept.reverse key = none := by
  rw [Fields.get?_eq_none]
  intro w hw
  obtain ⟨_, _, _, v, hv', _⟩ := (mem_of_keepAll h).mp (List.mem_reverse.mp hw)
  rw [hv] at hv'
  cases hv'

theorem exists_keepAll (h : ∀ a ∈ attributes table, ∀ v, values.get? a.name = some v →
    prepare a.kind v = .ok () ∧ ∃ w, keep a.kind v = .ok w) : ∃ kept, keepAll table values = .ok kept := by
  have hall : ∀ p ∈ (attributes table).filterMap fun a => (values.get? a.name).map (a, ·),
      prepare p.1.kind p.2 = .ok () ∧ ∃ w, keep p.1.kind p.2 = .ok w := by
    intro p hp
    simp only [List.mem_filterMap, Option.map_eq_some_iff] at hp
    obtain ⟨a, ha, v, hv, rfl⟩ := hp
    exact h a ha v hv
  unfold keepAll
  generalize (attributes table).filterMap _ = given at hall
  have hprepared : given.forM (fun p => prepare p.1.kind p.2) = .ok () := forM_eq_ok.mpr fun p hp => (hall p hp).1
  obtain ⟨kept, hkept⟩ := exists_mapM (f := fun p : Attribute × Value => do
      return (p.1.name, ← keep p.1.kind p.2)) fun p hp => by
    obtain ⟨w, hw⟩ := (hall p hp).2
    exact ⟨(p.1.name, w), by rw [hw]; rfl⟩
  refine ⟨kept, ?_⟩
  rw [bind_eq_ok]
  exact ⟨(), hprepared, hkept⟩

/-! ## Columns that are given -/

/-- What `add` takes of the members that are given: of those that are empty only documents. -/
def given (table : Table) (values : Fields) : Fields :=
  (attributes table).filterMap fun a =>
    ((values.get? a.name).filter fun v => !v.isNull || a.keepsNull).map (a.name, ·)

theorem mem_given {key : String} {v : Value} : (key, v) ∈ given table values ↔
    ∃ a ∈ attributes table, a.name = key ∧ values.get? key = some v ∧ (!v.isNull || a.keepsNull) := by
  simp only [given, List.mem_filterMap, Option.map_eq_some_iff, Option.filter_eq_some_iff]
  constructor
  . rintro ⟨a, ha, w, ⟨hw, hkeeps⟩, hpair⟩
    cases hpair
    exact ⟨a, ha, rfl, hw, hkeeps⟩
  . rintro ⟨a, ha, rfl, hv, hkeeps⟩
    exact ⟨a, ha, v, ⟨hv, hkeeps⟩, rfl⟩

theorem get?_given (ha : a ∈ attributes table) {v : Value} :
    (given table values).get? a.name = some v ↔ values.get? a.name = some v ∧ (!v.isNull || a.keepsNull) := by
  constructor
  . intro h
    obtain ⟨b, hb, hname, hv, hkeeps⟩ := mem_given.mp (Fields.mem_of_get? h)
    rw [eq_of_mem_attributes hb ha hname] at hkeeps
    exact ⟨hv, hkeeps⟩
  . rintro ⟨hv, hkeeps⟩
    have hmem : (a.name, v) ∈ given table values := mem_given.mpr ⟨a, ha, rfl, hv, hkeeps⟩
    cases hfound : (given table values).get? a.name with
    | none => exact absurd hmem (Fields.get?_eq_none.mp hfound v)
    | some w =>
      obtain ⟨_, _, _, hw, _⟩ := mem_given.mp (Fields.mem_of_get? hfound)
      rw [← hw, hv]

section

variable (h : keepAll table (given table values) = .ok kept) (ha : a ∈ attributes table) (initial : Fields)

include h ha

theorem get?_row {v w : Value} (hv : values.get? a.name = some v) (hkeeps : !v.isNull || a.keepsNull)
    (hw : keep a.kind v = .ok w) : (initial.merge kept).get? a.name = some w := by
  rw [Fields.get?_merge, get?_of_keepAll h ha ((get?_given ha).mpr ⟨hv, hkeeps⟩) hw]
  rfl

theorem get?_row_of_null (hv : values.get? a.name = some .null) (hkeeps : a.keepsNull = false) :
    (initial.merge kept).get? a.name = initial.get? a.name := by
  have hnone : (given table values).get? a.name = none := by
    cases hfound : (given table values).get? a.name with
    | none => rfl
    | some w =>
      obtain ⟨hw, hgiven⟩ := (get?_given ha).mp hfound
      rw [hv, Option.some.injEq] at hw
      subst hw
      simp [Value.isNull, hkeeps] at hgiven
  rw [Fields.get?_merge, get?_of_keepAll_none h hnone]
  rfl

end

end Direct

/-! ## Leads -/

/-- The members that a lead is written from. -/
def Lead.document (name : String) (email phone company source score : Value) (custom : Fields) : Fields :=
  [("name", .text name), ("email", email), ("phone", phone), ("company", company), ("source", source),
    ("lead_score", score), ("custom_fields", .object custom)]

namespace Direct

open Transaction

variable {now : Instant} {values kept : Fields} {s s' : Store} {l : Lead}

theorem of_addLead (h : addLead now values s = .ok (l, s')) :
    ∃ kept id, keepAll .lead (given .lead values) = .ok kept ∧ l = Row.lead id ((initial now .lead).merge kept) ∧
      s' = { s with leads := Row.put (·.id) id l s.leads } := by
  simp only [addLead, add, Transaction.bind_eq_ok, lift_eq_ok, demand_eq_ok, get_eq_ok, pure_eq_ok, reading_eq_ok] at h
  obtain ⟨id, _, ⟨_, _, ⟨-, rfl⟩, _, _, ⟨-, rfl⟩, _, _, ⟨rfl, rfl⟩, kept, _, ⟨hkept, rfl⟩, _, _, ⟨-, rfl⟩, _, _, ⟨-, rfl⟩,
    _, _, hset, rfl, rfl⟩, hfound, rfl⟩ := h
  cases hset
  generalize (_ : Option Int).getD _ = id at hfound ⊢
  have hput : l = Row.lead id ((initial now .lead).merge kept) := by
    rw [Store.follow_eq_ok] at hfound
    exact Option.some.inj (hfound.symm.trans (@Row.find?_put Lead (·.id) (Row.lead id _) id rfl s.leads))
  exact ⟨kept, id, hkept, hput, by rw [hput]; rfl⟩

theorem attributes_lead : attributes .lead = [.optional "id" .number, .required "name" .text, .optional "email" .text,
    .optional "phone" .text, .optional "company" .text, .optional "source" .text, .optional "lead_score" .number,
    ⟨"custom_fields", .document, false, .value (.object [])⟩, .stamp "created_at" false, .stamp "updated_at" false] :=
  rfl

section

variable {name : String} {email phone company source score : Value} {custom : Fields}

/-- A lead has the custom fields that it is written with, and the score. -/
theorem of_addLead_document (hscore : score = .null ∨ ∃ n, score = .int n)
    (h : addLead now (Lead.document name email phone company source score custom) s = .ok (l, s')) :
    l.custom = .object custom ∧ l.score = score := by
  obtain ⟨kept, id, hkept, rfl, -⟩ := of_addLead h
  have hcustom := get?_row hkept (a := ⟨"custom_fields", .document, false, .value (.object [])⟩)
    (by simp [attributes_lead]) (initial now .lead) (v := .object custom) (w := .object custom) rfl rfl rfl
  refine ⟨by simp [Row.lead, Fields.getD, hcustom], ?_⟩
  rcases hscore with rfl | ⟨n, rfl⟩
  . have := get?_row_of_null hkept (a := .optional "lead_score" .number) (by simp [attributes_lead])
      (initial now .lead) rfl rfl
    simp only [Attribute.optional] at this
    simp only [Row.lead, Fields.getD, this]
    rfl
  . have hgiven : (given .lead (Lead.document name email phone company source (.int n) custom)).get? "lead_score" =
        some (.int n) := (get?_given (a := .optional "lead_score" .number) (by simp [attributes_lead])).mpr ⟨rfl, rfl⟩
    obtain ⟨w, hw⟩ := exists_keep hkept (a := .optional "lead_score" .number) (by simp [attributes_lead]) hgiven
    have hint : w = .int n := by
      simp only [Attribute.optional, keep, Column.number, bind_eq_ok, pure, Except.pure, Except.ok.injEq] at hw
      obtain ⟨_, -, rfl⟩ := hw
      rfl
    have := get?_row hkept (a := .optional "lead_score" .number) (by simp [attributes_lead]) (initial now .lead) rfl rfl hw
    simp only [Attribute.optional] at this
    simp only [Row.lead, Fields.getD, this, hint]
    rfl

end

/-! ## Leads that can be written -/

theorem checkTimes_eq_ok (h : ∀ f ∈ values, ¬isTime f.1) : checkTimes values = .ok () := by
  apply forM_eq_ok.mpr
  rintro ⟨key, v⟩ hf
  have hkey := h _ hf
  cases v <;> simp [hkey]

theorem checkRequired_lead {row : Fields} {name : String} (h : row.get? "name" = some (.text name)) :
    checkRequired .lead row = .ok () := by
  apply forM_eq_ok.mpr
  intro a ha
  simp only [Table.columns, Attribute.stamps, List.mem_append, List.mem_cons, List.not_mem_nil, or_false] at ha
  rcases ha with (rfl | rfl | rfl | rfl | rfl | rfl | rfl) | rfl | rfl <;>
    simp [Attribute.required, Attribute.optional, Attribute.stamp, Fields.getD, h, Value.isNull]

theorem refersToRows_lead (s : Store) (id : Int) (row : Fields) : refersToRows s .lead id row := by
  simp [refersToRows, Table.columns, Attribute.stamps, Attribute.required, Attribute.optional, Attribute.stamp]

theorem isFree_nextId (rows : List Fields) (key : String) :
    rows.any (fun r => Row.int? r key = some (Store.nextId (rows.map (Row.int · key)))) = false := by
  rw [List.any_eq_false]
  intro r hr hid
  rw [decide_eq_true_eq] at hid
  have hint : Row.int r key = Store.nextId (rows.map (Row.int · key)) := by
    rw [Row.int, hid]
    rfl
  have hlt := Store.lt_nextId (List.mem_map_of_mem (f := (Row.int · key)) hr)
  omega

theorem checkRow_lead {row : Fields} {name : String} (h : row.get? "name" = some (.text name)) :
    checkRow s .lead none (Store.nextId ((Row.all s .lead).map (Row.int · "id"))) row row = .ok () := by
  have hothers : (Row.all s .lead).filter (fun r => Row.int? r "id" ≠ none) = Row.all s .lead := by
    rw [List.filter_eq_self]
    intro r hr
    simp only [Row.all, List.mem_map] at hr
    obtain ⟨l, -, rfl⟩ := hr
    rfl
  unfold checkRow
  rw [hothers]
  dsimp only
  rw [isFree_nextId, checkRequired_lead h, refersToRows_lead]
  rfl

theorem givenId_eq_none (h : keepAll .lead (given .lead values) = .ok kept) (hid : values.get? "id" = none) :
    givenId kept = .ok none := by
  have hnone : (given .lead values).get? "id" = none := by
    rw [Fields.get?_eq_none]
    intro v hv
    obtain ⟨_, _, _, hv, _⟩ := mem_given.mp hv
    rw [hid] at hv
    cases hv
  have hkept : Fields.get? kept "id" = none := by
    have := get?_of_keepAll_none h hnone
    rw [Fields.get?_eq_none] at this ⊢
    exact fun v hv => this v (List.mem_reverse.mpr hv)
  simp [givenId, Fields.getD, hkept]

theorem get?_name {name : String} (h : keepAll .lead (given .lead values) = .ok kept) (initial : Fields)
    (hname : values.get? "name" = some (.text name)) : (initial.merge kept).get? "name" = some (.text name) := by
  have hmem : Attribute.required "name" .text ∈ attributes .lead := by simp [attributes_lead]
  obtain ⟨w, hw⟩ := exists_keep h hmem ((get?_given hmem).mpr ⟨hname, rfl⟩)
  have hrow := get?_row h hmem initial hname rfl hw
  simp only [Attribute.required, keep, Column.text] at hw hrow
  rw [hrow]
  obtain ⟨text, htext, rfl⟩ := map_eq_ok.mp hw
  rw [bind_eq_ok] at htext
  obtain ⟨_, -, htext⟩ := htext
  cases htext
  rfl

theorem exists_addLead {name : String} (hkeys : ∀ f ∈ values, ¬isTime f.1 ∧ ∃ a ∈ attributes .lead, a.name = f.1)
    (hid : values.get? "id" = none) (hname : values.get? "name" = some (.text name))
    (hkeep : ∀ a ∈ attributes .lead, ∀ v, values.get? a.name = some v → (!v.isNull || a.keepsNull) →
      prepare a.kind v = .ok () ∧ ∃ w, keep a.kind v = .ok w) :
    ∃ l s', addLead now values s = .ok (l, s') := by
  obtain ⟨kept, hkept⟩ : ∃ kept, keepAll .lead (given .lead values) = .ok kept := by
    apply exists_keepAll
    intro a ha v hv
    obtain ⟨hv, hkeeps⟩ := (get?_given ha).mp hv
    exact hkeep a ha v hv hkeeps
  have htimes : checkTimes values = .ok () := checkTimes_eq_ok fun f hf => (hkeys f hf).1
  have hknown : (values.all fun f => (attributes .lead).any (·.name = f.1)) = true := by
    rw [List.all_eq_true]
    intro f hf
    rw [List.any_eq_true]
    obtain ⟨a, ha, hname⟩ := (hkeys f hf).2
    exact ⟨a, ha, by simpa using hname⟩
  obtain ⟨id, hnew⟩ : ∃ id, id = Store.nextId ((Row.all s .lead).map (Row.int · "id")) := ⟨_, rfl⟩
  obtain ⟨row, hrow⟩ : ∃ row, row = (initial now .lead).merge kept := ⟨_, rfl⟩
  have hcheck : checkRow s .lead none id row row = .ok () := by
    rw [hnew, hrow]
    exact checkRow_lead (get?_name hkept _ hname)
  have hadd : add now .lead values s = .ok (id, Row.write s .lead id id row) := by
    subst hnew hrow
    have hgiven := hkept
    unfold given at hgiven
    unfold add
    have hdemand : demand _ (.broken .wrongKind) s = .ok ((), s) := demand_eq_ok.mpr ⟨hknown, rfl⟩
    rw [lift_bind_of_ok htimes, bind_of_ok hdemand, bind_of_ok (get_eq_ok.mpr ⟨rfl, rfl⟩)]
    dsimp only
    rw [lift_bind_of_ok hgiven, lift_bind_of_ok (givenId_eq_none hkept hid), Option.getD_none, lift_bind_of_ok hcheck]
    rfl
  unfold addLead
  rw [bind_of_ok hadd]
  refine ⟨Row.lead id row, _, reading_eq_ok.mpr ⟨?_, rfl⟩⟩
  rw [Store.follow_eq_ok]
  exact @Row.find?_put Lead (·.id) (Row.lead id row) id rfl s.leads

end Direct

end StageGate
