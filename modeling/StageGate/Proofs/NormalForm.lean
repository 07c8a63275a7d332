import StageGate.Configuration
import StageGate.Proofs.Outcome
import StageGate.Value.Normal

/-!
This module contains that a rule reads the same in its normal form. Values are those that a document can
hold, and every rule that was read has a written form of this kind.
-/

namespace StageGate

@[simp]
theorem Fields.get?_nil (key : String) : Fields.get? [] key = none := rfl

theorem Fields.get?_cons (k : String) (v : Value) (fields : Fields) (key : String) :
    Fields.get? ((k, v) :: fields) key = if key = k then some v else fields.get? key := by
  unfold get?
  rw [List.lookup_cons]
  by_cases h : key = k
  . simp [h]
  . simp [h, beq_eq_false_iff_ne.mpr h]

/-! ## Documents -/

namespace Value

mutual

/-- Whether a value can be written as a document: no decimal numbers, and no member twice. -/
def isJson : Value → Bool
  | .decimal _ => false
  | .list items => areJson items
  | .object fields => haveJson fields
  | _ => true

def areJson : List Value → Bool
  | [] => true
  | v :: vs => isJson v && areJson vs

def haveJson : List (String × Value) → Bool
  | [] => true
  | (k, v) :: fs => !Fields.has fs k && isJson v && haveJson fs

end

theorem isJson_of_get? {fields : Fields} (h : haveJson fields) {key : String} {v : Value}
    (hv : fields.get? key = some v) : v.isJson := by
  induction fields with
  | nil => cases hv
  | cons f fs ih =>
    obtain ⟨k, w⟩ := f
    simp only [haveJson, Bool.and_eq_true] at h
    rw [Fields.get?_cons] at hv
    split at hv
    . cases hv
      exact h.1.2
    . exact ih h.2 hv

mutual

theorem isDocument_of_isJson : ∀ {v : Value}, v.isJson → Column.isDocument v
  | .list _, h => areDocuments_of_areJson h
  | .object _, h => haveDocuments_of_haveJson h
  | .null, _ | .bool _, _ | .int _, _ | .float _, _ | .text _, _ => rfl

theorem areDocuments_of_areJson : ∀ {vs : List Value}, areJson vs → Column.areDocuments vs
  | [], _ => rfl
  | v :: vs, h => by
    simp only [areJson, Column.areDocuments, Bool.and_eq_true] at h ⊢
    exact ⟨isDocument_of_isJson h.1, areDocuments_of_areJson h.2⟩

theorem haveDocuments_of_haveJson : ∀ {fs : List (String × Value)}, haveJson fs → Column.haveDocuments fs
  | [], _ => rfl
  | (_, v) :: fs, h => by
    simp only [haveJson, Column.haveDocuments, Bool.and_eq_true] at h ⊢
    exact ⟨isDocument_of_isJson h.1.2, haveDocuments_of_haveJson h.2⟩

end

theorem isJson_of_isScalar {v : Value} (h : Rule.isScalar v) : v.isJson := by
  cases v <;> simp_all [Rule.isScalar, isJson]

/-! ## Normal forms -/

theorem get?_insertField {fields : Fields} {key : String} (h : fields.get? key = none) (v : Value)
    (name : String) :
    (insertField key v fields).get? name = if name = key then some v else fields.get? name := by
  induction fields with
  | nil => simp [insertField, Fields.get?_cons]
  | cons f fs ih =>
    obtain ⟨k, w⟩ := f
    have hk : key ≠ k := by
      rintro rfl
      simp [Fields.get?_cons] at h
    have hnone : Fields.get? fs key = none := by simpa [Fields.get?_cons, hk] using h
    unfold insertField
    split
    . rw [Fields.get?_cons]
    . rw [Fields.get?_cons, Fields.get?_cons, ih hnone]
      by_cases hn : name = k
      . have : name ≠ key := fun e => hk (e.symm.trans hn)
        simp [hn, hk.symm]
      . simp [hn]

theorem get?_normalFields {fields : Fields} (h : haveJson fields) (key : String) :
    (normalFields fields).get? key = (fields.get? key).map normal := by
  induction fields generalizing key with
  | nil => rfl
  | cons f fs ih =>
    obtain ⟨k, v⟩ := f
    simp only [haveJson, Bool.and_eq_true, Bool.not_eq_true', Fields.has, Option.isSome_eq_false_iff,
      Option.isNone_iff_eq_none] at h
    have hnone : (normalFields fs).get? k = none := by
      rw [ih h.2, h.1.1]
      rfl
    rw [normalFields, get?_insertField hnone, ih h.2, Fields.get?_cons]
    split <;> rfl

theorem has_normalFields {fields : Fields} (h : haveJson fields) (key : String) :
    Fields.has (normalFields fields) key = Fields.has fields key := by
  unfold Fields.has
  rw [get?_normalFields h, Option.isSome_map]

theorem getD_normalFields {fields : Fields} (h : haveJson fields) (key : String) (fallback : Value) :
    Fields.getD (normalFields fields) key fallback.normal = (Fields.getD fields key fallback).normal := by
  unfold Fields.getD
  rw [get?_normalFields h]
  cases fields.get? key <;> rfl

theorem getD_null_normalFields {fields : Fields} (h : haveJson fields) (key : String) :
    Fields.getD (normalFields fields) key .null = (Fields.getD fields key .null).normal :=
  getD_normalFields h key .null

theorem isNull_normal (v : Value) : v.normal.isNull = v.isNull := by
  cases v <;> rfl

theorem insertField_ne_nil (key : String) (v : Value) (fields : Fields) : insertField key v fields ≠ [] := by
  cases fields with
  | nil => simp [insertField]
  | cons f fs =>
    obtain ⟨k, w⟩ := f
    unfold insertField
    split <;> simp

theorem normalFields_eq_nil {fields : Fields} : normalFields fields = [] ↔ fields = [] := by
  cases fields with
  | nil => simp [normalFields]
  | cons f fs => simp [normalFields, insertField_ne_nil]

theorem isTrue_normal {v : Value} (h : v.isJson) : v.normal.isTrue = v.isTrue := by
  cases v with
  | list vs => cases vs <;> rfl
  | object fields =>
    cases fields with
    | nil => rfl
    | cons f fs =>
      simp only [normal, isTrue, List.isEmpty_cons, Bool.not_false, Bool.not_eq_true',
        List.isEmpty_eq_false_iff, Ne, normalFields_eq_nil]
      simp
  | decimal => simp [isJson] at h
  | _ => rfl

section

variable {limit : Nat}

theorem below_of_get? {fields : Fields} (h : fieldsBelow limit fields) {key : String} {v : Value}
    (hv : fields.get? key = some v) : v.integersBelow limit := by
  induction fields with
  | nil => cases hv
  | cons f fs ih =>
    obtain ⟨k, w⟩ := f
    simp only [fieldsBelow, Bool.and_eq_true] at h
    rw [Fields.get?_cons] at hv
    split at hv
    . cases hv
      exact h.1
    . exact ih h.2 hv

theorem fieldsBelow_insertField (key : String) (v : Value) (fields : Fields) :
    fieldsBelow limit (insertField key v fields) = (integersBelow limit v && fieldsBelow limit fields) := by
  induction fields with
  | nil => rfl
  | cons f fs ih =>
    obtain ⟨k, w⟩ := f
    unfold insertField
    split
    . rfl
    . rw [fieldsBelow, ih, fieldsBelow, Bool.and_left_comm]

mutual

theorem integersBelow_normal : ∀ v : Value, integersBelow limit v.normal = integersBelow limit v
  | .null | .bool _ | .int _ | .float _ | .decimal _ | .text _ => rfl
  | .list items => itemsBelow_normal items
  | .object fields => fieldsBelow_normal fields

theorem itemsBelow_normal : ∀ vs : List Value, itemsBelow limit (normalItems vs) = itemsBelow limit vs
  | [] => rfl
  | v :: vs => by rw [normalItems, itemsBelow, integersBelow_normal v, itemsBelow_normal vs, itemsBelow]

theorem fieldsBelow_normal : ∀ fs : List (String × Value), fieldsBelow limit (normalFields fs) = fieldsBelow limit fs
  | [] => rfl
  | (k, v) :: fs => by
    rw [normalFields, fieldsBelow_insertField, integersBelow_normal v, fieldsBelow_normal fs, fieldsBelow]

end

theorem isWritable_normal (v : Value) : v.normal.isWritable = v.isWritable :=
  integersBelow_normal v

end

end Value

/-! ## Reading rules -/

namespace Rule

open Value

theorem readName_normal {α : Type} {ofName? : String → Option α} {word : Value} (h : word.isJson)
    (key path : String) : readName key path ofName? word.normal = readName key path ofName? word := by
  unfold readName
  rw [isTrue_normal h]
  cases word with
  | decimal => simp [isJson] at h
  | _ => rfl

section

variable {fields : Fields}

theorem isJson_getD (h : haveJson fields) {fallback : Value} (hf : fallback.isJson) (key : String) :
    (Fields.getD fields key fallback).isJson := by
  unfold Fields.getD
  cases hv : fields.get? key with
  | none => exact hf
  | some v => exact isJson_of_get? h hv

theorem isJson_getD_null (h : haveJson fields) (key : String) : (Fields.getD fields key .null).isJson :=
  isJson_getD h rfl key

theorem readField_normal (h : haveJson fields) (path : String) :
    readField path (normalFields fields) = readField path fields := by
  unfold readField
  rw [get?_normalFields h]
  cases hv : fields.get? "field" with
  | none => rfl
  | some v =>
    have hjson := isJson_of_get? h hv
    cases v with
    | decimal => simp [isJson] at hjson
    | _ => rfl

theorem readOperand_normal (h : haveJson fields) (path : String) (op : Operator) :
    readOperand path op (normalFields fields) = readOperand path op fields := by
  unfold readOperand
  have hjson := isJson_getD_null h "value"
  simp only [has_normalFields h, getD_null_normalFields h]
  cases hv : Fields.getD fields "value" .null with
  | decimal => simp [hv, isJson] at hjson
  | _ => rfl

theorem readLeaf_normal (h : haveJson fields) (path : String) :
    readLeaf path (normalFields fields) = readLeaf path fields := by
  have hword := getD_normalFields h "domain" (Fields.getD fields "type" .null)
  unfold readLeaf
  simp only [getD_null_normalFields h, hword, readField_normal h, readOperand_normal h,
    readName_normal (isJson_getD h (isJson_getD_null h "type") "domain"),
    readName_normal (isJson_getD_null h "operator")]

theorem isGroup_normal (h : haveJson fields) : isGroup (normalFields fields) = isGroup fields := by
  unfold isGroup
  rw [has_normalFields h, has_normalFields h, get?_normalFields h]
  cases hv : fields.get? "type" with
  | none => rfl
  | some v =>
    have hjson := isJson_of_get? h hv
    cases v with
    | decimal => simp [isJson] at hjson
    | _ => rfl

theorem readLogic_normal (h : haveJson fields) (path : String) :
    readLogic path (normalFields fields) = readLogic path fields := by
  unfold readLogic
  rw [getD_null_normalFields h]
  have hjson := isJson_getD_null h "logic"
  have hwritable := isWritable_normal (Fields.getD fields "logic" .null)
  cases hv : Fields.getD fields "logic" .null with
  | decimal => simp [hv, isJson] at hjson
  | list | object =>
    rw [hv] at hwritable
    simp only [normal] at hwritable ⊢
    rw [hwritable]
  | _ => rfl

variable {readChild : String → Value → Except Fault Rule}

theorem readChildren_normal (hc : ∀ path v, v.isJson → readChild path v.normal = readChild path v)
    {vs : List Value} (h : areJson vs) (path : String) (i : Nat) :
    readChildren readChild path i (normalItems vs) = readChildren readChild path i vs := by
  induction vs generalizing i with
  | nil => rfl
  | cons v vs ih =>
    simp only [areJson, Bool.and_eq_true] at h
    rw [normalItems, readChildren, readChildren, hc _ v h.1]
    simp only [ih h.2]

theorem readGroup_normal (hc : ∀ path v, v.isJson → readChild path v.normal = readChild path v)
    (h : haveJson fields) (path : String) :
    readGroup readChild path (normalFields fields) = readGroup readChild path fields := by
  unfold readGroup
  simp only [readLogic_normal h, has_normalFields h]
  generalize (if Fields.has fields "children" then "children" else "rules") = key
  have hjson := isJson_getD_null h key
  rw [getD_null_normalFields h]
  cases hv : Fields.getD fields key .null with
  | list vs =>
    rw [hv, isJson] at hjson
    cases vs with
    | nil => rfl
    | cons v vs => simp only [normal, ← readChildren_normal hc hjson, normalItems]
  | decimal => simp [hv, isJson] at hjson
  | _ => rfl

theorem readNode_normal (hc : ∀ path v, v.isJson → readChild path v.normal = readChild path v)
    (h : haveJson fields) (path : String) :
    readNode readChild path (normalFields fields) = readNode readChild path fields := by
  unfold readNode
  rw [isGroup_normal h, readGroup_normal hc h, readLeaf_normal h]

end

theorem readWithin_normal (levels : Nat) (path : String) {v : Value} (h : v.isJson) :
    readWithin levels path v.normal = readWithin levels path v := by
  induction levels generalizing path v with
  | zero => cases v <;> rfl
  | succ levels ih =>
    cases v with
    | object fields => exact readNode_normal (fun path v hv => ih path hv) h path
    | _ => rfl

theorem read_normal (path : String) {v : Value} (h : v.isJson) : read path v.normal = read path v :=
  readWithin_normal _ path h

/-! ## Rules that were read -/

mutual

/-- The operands of a rule are scalars, so its written form is a document. -/
def isWritten : Rule → Bool
  | .leaf l => isScalar l.value
  | .group _ children => areWritten children

def areWritten : List Rule → Bool
  | [] => true
  | r :: rs => isWritten r && areWritten rs

end

mutual

theorem isJson_toValue : ∀ {r : Rule}, r.isWritten → r.toValue.isJson
  | .leaf l, h => by
    have := isJson_of_isScalar h
    unfold toValue Leaf.toValue
    split <;> simp [isJson, haveJson, Fields.has, Fields.get?_cons, this]
  | .group logic children, h => by
    have := areJson_toValues h
    simp [toValue, groupForm, isJson, haveJson, Fields.has, Fields.get?_cons, this]

theorem areJson_toValues : ∀ {rs : List Rule}, areWritten rs → areJson (toValues rs)
  | [], _ => rfl
  | r :: rs, h => by
    simp only [areWritten, Bool.and_eq_true] at h
    simp only [toValues, areJson, isJson_toValue h.1, areJson_toValues h.2, Bool.and_self]

end

theorem of_readOperand {path : String} {op : Operator} {fields : Fields} {v : Value}
    (h : readOperand path op fields = .ok v) : v = Fields.getD fields "value" .null ∧ isScalar v := by
  unfold readOperand at h
  split at h
  . cases h
  . dsimp only at h
    split at h
    . next hs =>
      cases h
      exact ⟨rfl, hs⟩
    . cases h

theorem isWritten_of_readLeaf {path : String} {fields : Fields} {l : Leaf}
    (h : readLeaf path fields = .ok l) : isWritten (.leaf l) := by
  unfold readLeaf at h
  simp only [bind_eq_ok, pure, Except.pure, Except.ok.injEq] at h
  obtain ⟨_, -, _, -, _, -, v, hv, rfl⟩ := h
  exact (of_readOperand hv).2

section

variable {readChild : String → Value → Except Fault Rule}
  (hc : ∀ path v r, readChild path v = .ok r → r.isWritten)

include hc

theorem areWritten_of_readChildren {path : String} {i : Nat} {vs : List Value} {rs : List Rule}
    (h : readChildren readChild path i vs = .ok rs) : areWritten rs := by
  induction vs generalizing i rs with
  | nil =>
    cases h
    rfl
  | cons v vs ih =>
    simp only [readChildren, bind_eq_ok, pure, Except.pure, Except.ok.injEq] at h
    obtain ⟨r, hr, rs, hrs, rfl⟩ := h
    simp only [areWritten, hc _ _ _ hr, ih hrs, Bool.and_self]

theorem isWritten_of_readGroup {path : String} {fields : Fields} {r : Rule}
    (h : readGroup readChild path fields = .ok r) : r.isWritten := by
  simp only [readGroup, bind_eq_ok] at h
  obtain ⟨logic, -, h⟩ := h
  split at h
  . cases h
  . simp only [bind_eq_ok, pure, Except.pure, Except.ok.injEq] at h
    obtain ⟨rs, hrs, rfl⟩ := h
    exact areWritten_of_readChildren hc hrs
  . cases h

theorem isWritten_of_readNode {path : String} {fields : Fields} {r : Rule}
    (h : readNode readChild path fields = .ok r) : r.isWritten := by
  unfold readNode at h
  split at h
  . exact isWritten_of_readGroup hc h
  . cases hl : readLeaf path fields with
    | error e =>
      rw [hl] at h
      cases h
    | ok l =>
      rw [hl] at h
      cases h
      exact isWritten_of_readLeaf hl

end

theorem isWritten_of_readWithin {levels : Nat} {path : String} {v : Value} {r : Rule}
    (h : readWithin levels path v = .ok r) : r.isWritten := by
  induction levels generalizing path v r with
  | zero => cases v <;> cases h
  | succ levels ih =>
    cases v with
    | object fields => exact isWritten_of_readNode (fun _ _ _ hr => ih hr) h
    | _ => cases h

theorem isWritten_of_read {path : String} {v : Value} {r : Rule} (h : read path v = .ok r) : r.isWritten :=
  isWritten_of_readWithin h

end Rule

theorem Kind.readRule_normal (k : Kind) (path : String) {rule : Value} (h : rule.isJson) :
    k.readRule path rule.normal = k.readRule path rule := by
  unfold readRule
  rw [Value.isNull_normal, Rule.read_normal path h]

theorem Kind.readRule_eq_ok {k : Kind} {path : String} {v : Value} {rule? : Option Rule}
    (h : k.readRule path v = .ok rule?) :
    if k.hasRule then ∃ r, Rule.read path v = .ok r ∧ rule? = some r else rule? = none := by
  unfold readRule at h
  cases hk : k.hasRule with
  | false =>
    simp only [hk, Bool.not_false, ↓reduceIte, Except.ok.injEq] at h
    exact h.symm
  | true =>
    simp only [hk, Bool.not_true, Bool.false_eq_true, ↓reduceIte] at h ⊢
    split at h
    . cases h
    . obtain ⟨r, hread, rfl⟩ := map_eq_ok.mp h
      exact ⟨r, hread, rfl⟩

namespace Configuration

variable {kind : Kind} {given rule : Value}

theorem storedRule_eq_ok (h : storedRule kind given = .ok rule) :
    if kind.hasRule then ∃ r, Rule.read "criterion.rule" given = .ok r ∧ rule = r.toValue else rule = .null := by
  simp only [storedRule, bind_eq_ok, pure, Except.pure, Except.ok.injEq] at h
  obtain ⟨rule?, hrule, rfl⟩ := h
  have hread := Kind.readRule_eq_ok hrule
  split at hread
  . next hk =>
    obtain ⟨r, hr, rfl⟩ := hread
    rw [if_pos hk]
    exact ⟨r, hr, rfl⟩
  . next hk =>
    rw [if_neg hk, hread]
    rfl

theorem isJson_of_storedRule (h : storedRule kind given = .ok rule) : rule.isJson := by
  have hstored := storedRule_eq_ok h
  split at hstored
  . obtain ⟨r, hr, rfl⟩ := hstored
    exact Rule.isJson_toValue (Rule.isWritten_of_read hr)
  . rw [hstored]
    rfl

end Configuration

end StageGate
