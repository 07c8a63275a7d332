import StageGate.Lead
import StageGate.Proofs.Documents

/-!
This module contains what rules read of a lead. Under the name of a column they read the column, and under every
other name what the custom fields hold that are not named like a column, whether the name is dotted or not.
-/

namespace StageGate

namespace Value

variable {fields others : Fields} {name : String}

/-- There is nothing to walk on to in a scalar. -/
theorem walk_of_isScalar {v : Value} (h : Rule.isScalar v) (part : String) (parts : List String) :
    walk (part :: parts) v = none := by
  cases v with
  | object => cases h
  | _ => rfl

/-- Scalars hide the members that a name would lead through, as if those were not there. -/
theorem resolve?_of_hidden {hidden : List String} (hname : name ∉ hidden)
    (hagree : ∀ key, key ∉ hidden → fields.get? key = others.get? key)
    (hscalar : ∀ key v, key ∈ hidden → fields.get? key = some v → Rule.isScalar v)
    (hnone : ∀ key, key ∈ hidden → others.get? key = none) :
    (object fields).resolve? name = (object others).resolve? name := by
  rw [resolve?_object, resolve?_object, hagree name hname]
  congr 2
  split
  . next hdot =>
    obtain ⟨part, next, rest, hparts⟩ := Text.exists_split_of_mem hdot
    rw [hparts, List.map_cons, List.map_cons, walk, walk]
    by_cases hpart : String.ofList part ∈ hidden
    . rw [hnone _ hpart, Option.bind_none]
      cases hv : fields.get? (String.ofList part) with
      | none => rfl
      | some v => exact walk_of_isScalar (hscalar _ v hpart hv) _ _
    . rw [hagree _ hpart]
  . rfl

/-- Where a name is not found, it does not lead on either. -/
theorem resolve?_dotted {core rest : String} (hcore : '.' ∉ core.toList) (h : fields.get? core = none) :
    (object fields).resolve? (core ++ "." ++ rest) = .ok (fields.get? (core ++ "." ++ rest)) := by
  have hlist : (core ++ "." ++ rest).toList = core.toList ++ '.' :: rest.toList := by simp
  rw [resolve?_object, hlist, Text.split_append hcore, List.map_cons, String.ofList_toList, walk, h, Option.bind_none,
    ite_self, Option.or_none]

end Value

namespace Lead

/-- What rules read under the names of a snapshot, by the columns and the custom fields that it was made of. -/
structure Shows (columns custom snapshot : Fields) : Prop where
  column : ∀ name v, (name, v) ∈ columns → (Value.object snapshot).resolve? name = .ok (some v)
  other : ∀ name, name ∉ coreNames → (Value.object snapshot).resolve? name =
    (Value.object (custom.filter fun f => f.1 ∉ coreNames)).resolve? name
  -- A custom object named like a column is not read through either.
  dotted : ∀ name ∈ coreNames, ∀ rest, (Value.object snapshot).resolve? (name ++ "." ++ rest) =
    .ok (custom.get? (name ++ "." ++ rest))

section

variable {columns custom : Fields} (hnames : columns.map (·.1) = coreNames)

include hnames

theorem get?_of_column {name : String} {v : Value} (h : (name, v) ∈ columns) : columns.get? name = some v := by
  apply Fields.get?_of_mem _ h
  rw [hnames]
  decide

theorem get?_column_eq_none {name : String} (h : name ∉ coreNames) : columns.get? name = none := by
  rw [← Option.isNone_iff_eq_none, ← Option.isSome_eq_false_iff, ← Fields.has, Fields.has_eq_false, hnames]
  exact h

theorem exists_column {name : String} (h : name ∈ coreNames) : ∃ v, (name, v) ∈ columns := by
  rw [← hnames, List.mem_map] at h
  obtain ⟨⟨_, v⟩, hmem, rfl⟩ := h
  exact ⟨v, hmem⟩

theorem get?_snapshot (hcustom : (custom.map (·.1)).Nodup) (name : String) :
    (Fields.merge (Fields.merge [] custom) columns).get? name = (columns.get? name).or (custom.get? name) := by
  have hcolumns : (columns.map (·.1)).Nodup := by
    rw [hnames]
    decide
  rw [Fields.get?_merge, Fields.get?_merge, Fields.get?_reverse hcustom, Fields.get?_reverse hcolumns, Fields.get?_nil,
    Option.or_none]

theorem shows_snapshot (hscalar : ∀ f ∈ columns, Rule.isScalar f.2) (hcustom : (custom.map (·.1)).Nodup) :
    Shows columns custom (Fields.merge (Fields.merge [] custom) columns) := by
  have hget := get?_snapshot hnames hcustom
  have hunnamed (key : String) : Fields.get? (custom.filter fun f => f.1 ∉ coreNames) key =
      if key ∉ coreNames then custom.get? key else none := by
    simpa using Fields.get?_filter (fun key => decide (key ∉ coreNames)) custom key
  have hother : ∀ name, name ∉ coreNames →
      (Value.object (Fields.merge (Fields.merge [] custom) columns)).resolve? name =
        (Value.object (custom.filter fun f => f.1 ∉ coreNames)).resolve? name := by
    intro name hname
    apply Value.resolve?_of_hidden hname
    . intro key hkey
      rw [hget, get?_column_eq_none hnames hkey, Option.none_or, hunnamed, if_pos hkey]
    . intro key v hkey hv
      obtain ⟨w, hw⟩ := exists_column hnames hkey
      rw [hget, get?_of_column hnames hw, Option.some_or, Option.some.injEq] at hv
      rw [← hv]
      exact hscalar _ hw
    . intro key hkey
      rw [hunnamed, if_neg (not_not.mpr hkey)]
  refine ⟨?_, hother, ?_⟩
  . intro name v hv
    apply Value.resolve?_of_get?
    rw [hget, get?_of_column hnames hv, Option.some_or]
  . intro name hname rest
    have hplain : ∀ core ∈ coreNames, '.' ∉ core.toList := by decide
    have hdotted : name ++ "." ++ rest ∉ coreNames := by
      intro hmem
      exact hplain _ hmem (by simp)
    rw [hother _ hdotted, Value.resolve?_dotted (hplain name hname), hunnamed, if_pos hdotted]
    rw [hunnamed, if_neg (not_not.mpr hname)]

end

theorem toFields_text (custom : Fields) :
    Members.toFields Value.asText? (custom.map fun (k, w) => (.text k, w)) = Fields.merge [] custom := by
  unfold Members.toFields
  rw [List.filterMap_map]
  congr 1
  exact List.filterMap_some

theorem snapshotOf_object (columns custom : Fields) :
    snapshotOf Value.asText? (.object custom) columns = .ok (Fields.merge (Fields.merge [] custom) columns) := by
  rw [← toFields_text]
  unfold snapshotOf Value.asMembers
  cases custom <;> rfl

/--
No custom field hides a column of a lead, whatever the fields are called and however they are nested, and neither does
a column let a rule read on into a custom object of its name. Columns are scalars, or null.
-/
theorem columns_never_hidden {columns custom : Fields} (hnames : columns.map (·.1) = coreNames)
    (hscalar : ∀ f ∈ columns, Rule.isScalar f.2) (hcustom : (Value.object custom).isJson) :
    ∃ snapshot, snapshotOf Value.asText? (.object custom) columns = .ok snapshot ∧ Shows columns custom snapshot ∧
      ∀ l : Lead, l.core = columns → l.custom = .object custom → l.snapshot = .ok snapshot := by
  refine ⟨_, snapshotOf_object columns custom, ?_, ?_⟩
  . exact shows_snapshot hnames hscalar (Fields.nodup_of_haveJson hcustom)
  . rintro l rfl hl
    rw [snapshot, hl, snapshotOf_object]

def gathered : Fields :=
  [("company", .object [("city", .text "London")]), ("source.medium", .text "ads"),
    ("address", .object [("city", .text "London")])]

def prospect : Lead :=
  ⟨1, "Ada", none, none, none, some "web", .int 80, .object gathered, none, none⟩

/-- A company that is not known stays so, and other custom fields are found under their names. -/
theorem columns_never_hidden_prospect : ∃ snapshot, prospect.snapshot = .ok snapshot ∧
    (Value.object snapshot).resolve? "company" = .ok (some .null) ∧
    (Value.object snapshot).resolve? "company.city" = .ok none ∧
    (Value.object snapshot).resolve? "source.medium" = .ok (some (.text "ads")) ∧
    (Value.object snapshot).resolve? "address.city" = .ok (some (.text "London")) := by
  have hnames : prospect.core.map (·.1) = coreNames := rfl
  have hgathered : (Value.object gathered).isJson := rfl
  obtain ⟨snapshot, -, hshows, hsnapshot⟩ := columns_never_hidden hnames (by decide) hgathered
  refine ⟨snapshot, hsnapshot prospect rfl rfl, hshows.column _ _ (by decide), ?_, ?_, ?_⟩
  . exact hshows.dotted "company" (by decide) "city"
  . exact hshows.dotted "source" (by decide) "medium"
  . rw [hshows.other "address.city" (by decide)]
    decide

end Lead

end StageGate
