import Mathlib.Data.List.TakeWhile
import StageGate.Proofs.NormalForm

/-!
This module contains that the written form of a rule keeps its meaning. A rule that was read is written
with the canonical words alone, and without the values that no operator takes. The reader takes this form
at the very depth of the rule, and what it reads there is written the same and holds of the same facts.
-/

namespace StageGate

/-! ## Trimmed texts -/

namespace Text

theorem dropWhile_dropWhile (p : Char → Bool) (cs : List Char) :
    (cs.dropWhile p).dropWhile p = cs.dropWhile p := by
  rw [List.dropWhile_eq_self_iff]
  exact List.dropWhile_get_zero_not p cs

theorem strip_begins_dropWhile (p : Char → Bool) (cs : List Char) : strip p cs <+: cs.dropWhile p := by
  rw [← List.reverse_suffix, strip, List.reverse_reverse]
  exact List.dropWhile_suffix p

theorem strip_strip (p : Char → Bool) (cs : List Char) : strip p (strip p cs) = strip p cs := by
  -- Nothing goes at the front, as what is left begins as it did when its front had been stripped.
  have front : (strip p cs).dropWhile p = strip p cs := by
    rw [List.dropWhile_eq_self_iff]
    intro hpos
    have hbegins := strip_begins_dropWhile p cs
    rw [hbegins.getElem hpos]
    exact List.dropWhile_get_zero_not p cs (Nat.lt_of_lt_of_le hpos hbegins.length_le)
  calc strip p (strip p cs)
    _ = (((strip p cs).dropWhile p).reverse.dropWhile p).reverse := rfl
    _ = ((strip p cs).reverse.dropWhile p).reverse := by rw [front]
    _ = strip p cs := by rw [strip, List.reverse_reverse, dropWhile_dropWhile]

theorem trim_trim (s : String) : trim (trim s) = trim s := by
  unfold trim
  rw [String.toList_ofList, strip_strip]

end Text

/-! ## What reading leaves -/

/-- What the reader sees to in a leaf. -/
structure Leaf.IsTidy (l : Leaf) : Prop where
  trimmed : Text.trim l.field = l.field
  named : l.field ≠ ""
  scalar : Rule.isScalar l.value

namespace Rule

/-- The rules that a reader of so many levels can answer with. -/
inductive Fits : Nat → Rule → Prop
  | leaf {levels : Nat} {l : Leaf} (h : l.IsTidy) : Fits (levels + 1) (.leaf l)
  | group {levels : Nat} {logic : Logic} {children : List Rule} (hne : children ≠ [])
      (h : ∀ r ∈ children, Fits levels r) : Fits (levels + 1) (.group logic children)

theorem isTidy_of_readLeaf {path : String} {fields : Fields} {l : Leaf}
    (h : readLeaf path fields = .ok l) : l.IsTidy := by
  unfold readLeaf at h
  simp only [bind_eq_ok, pure, Except.pure, Except.ok.injEq] at h
  obtain ⟨_, -, field, hfield, _, -, v, hv, rfl⟩ := h
  unfold readField at hfield
  split at hfield
  . dsimp only at hfield
    split at hfield
    . cases hfield
    . next hne =>
      cases hfield
      exact ⟨Text.trim_trim _, hne, (of_readOperand hv).2⟩
  . cases hfield

section

variable {readChild : String → Value → Except Fault Rule} {levels : Nat}
  (hc : ∀ path v r, readChild path v = .ok r → r.Fits levels)

include hc

theorem fits_of_readChildren {path : String} {i : Nat} {vs : List Value} {rs : List Rule}
    (h : readChildren readChild path i vs = .ok rs) : rs.length = vs.length ∧ ∀ r ∈ rs, r.Fits levels := by
  induction vs generalizing i rs with
  | nil =>
    cases h
    simp
  | cons v vs ih =>
    simp only [readChildren, bind_eq_ok, pure, Except.pure, Except.ok.injEq] at h
    obtain ⟨r, hr, rs, hrs, rfl⟩ := h
    obtain ⟨hlength, hfits⟩ := ih hrs
    refine ⟨by simp [hlength], ?_⟩
    rw [List.forall_mem_cons]
    exact ⟨hc _ _ _ hr, hfits⟩

theorem fits_of_readGroup {path : String} {fields : Fields} {r : Rule}
    (h : readGroup readChild path fields = .ok r) : r.Fits (levels + 1) := by
  simp only [readGroup, bind_eq_ok] at h
  obtain ⟨logic, -, h⟩ := h
  split at h
  . cases h
  . next vs hvs _ =>
    simp only [bind_eq_ok, pure, Except.pure, Except.ok.injEq] at h
    obtain ⟨rs, hrs, rfl⟩ := h
    obtain ⟨hlength, hfits⟩ := fits_of_readChildren hc hrs
    apply Fits.group _ hfits
    rintro rfl
    exact hvs (List.eq_nil_of_length_eq_zero hlength.symm)
  . cases h

theorem fits_of_readNode {path : String} {fields : Fields} {r : Rule}
    (h : readNode readChild path fields = .ok r) : r.Fits (levels + 1) := by
  unfold readNode at h
  split at h
  . exact fits_of_readGroup hc h
  . cases hl : readLeaf path fields with
    | error e =>
      rw [hl] at h
      cases h
    | ok l =>
      rw [hl] at h
      cases h
      exact .leaf (isTidy_of_readLeaf hl)

end

theorem fits_of_readWithin {levels : Nat} {path : String} {v : Value} {r : Rule}
    (h : readWithin levels path v = .ok r) : r.Fits levels := by
  induction levels generalizing path v r with
  | zero => cases v <;> cases h
  | succ levels ih =>
    cases v with
    | object fields => exact fits_of_readNode (fun _ _ _ hr => ih hr) h
    | _ => cases h

end Rule

/-! ## Integers of the written form -/

namespace Rule

open Value

variable {limit : Nat} {path : String} {fields : Fields}

theorem below_of_readLeaf {l : Leaf} (hfields : fieldsBelow limit fields) (h : readLeaf path fields = .ok l) :
    l.toValue.integersBelow limit := by
  unfold readLeaf at h
  simp only [bind_eq_ok, pure, Except.pure, Except.ok.injEq] at h
  obtain ⟨_, -, _, -, _, -, v, hv, rfl⟩ := h
  have hvalue : v.integersBelow limit := by
    rw [(of_readOperand hv).1, Fields.getD]
    cases hget : fields.get? "value" with
    | none => rfl
    | some w => exact below_of_get? hfields hget
  unfold Leaf.toValue
  split <;> simp [integersBelow, fieldsBelow, hvalue]

theorem below_of_readChildren {readChild : String → Value → Except Fault Rule}
    (hc : ∀ path v r, v.integersBelow limit → readChild path v = .ok r → r.toValue.integersBelow limit) {i : Nat}
    {vs : List Value} {rs : List Rule} (hvs : itemsBelow limit vs) (h : readChildren readChild path i vs = .ok rs) :
    itemsBelow limit (toValues rs) := by
  induction vs generalizing i rs with
  | nil =>
    cases h
    rfl
  | cons v vs ih =>
    simp only [itemsBelow, Bool.and_eq_true] at hvs
    simp only [readChildren, bind_eq_ok, pure, Except.pure, Except.ok.injEq] at h
    obtain ⟨r, hr, rs, hrs, rfl⟩ := h
    rw [toValues, itemsBelow, hc _ _ _ hvs.1 hr, ih hvs.2 hrs]
    rfl

theorem below_of_readGroup {readChild : String → Value → Except Fault Rule}
    (hc : ∀ path v r, v.integersBelow limit → readChild path v = .ok r → r.toValue.integersBelow limit) {r : Rule}
    (hfields : fieldsBelow limit fields) (h : readGroup readChild path fields = .ok r) :
    r.toValue.integersBelow limit := by
  simp only [readGroup, bind_eq_ok] at h
  obtain ⟨logic, -, h⟩ := h
  split at h
  . cases h
  . next vs _ hvs =>
    simp only [bind_eq_ok, pure, Except.pure, Except.ok.injEq] at h
    obtain ⟨rs, hrs, rfl⟩ := h
    have hitems : integersBelow limit (.list vs) := by
      rw [← hvs, Fields.getD]
      cases hget : fields.get? (if fields.has "children" then "children" else "rules") with
      | none => rfl
      | some w => exact below_of_get? hfields hget
    have hrules := below_of_readChildren hc hitems hrs
    simp [toValue, groupForm, integersBelow, fieldsBelow, hrules]
  . cases h

/-- No integer is written that was not there to be read. -/
theorem below_of_readWithin {levels : Nat} {v : Value} {r : Rule} (hv : v.integersBelow limit)
    (h : readWithin levels path v = .ok r) : r.toValue.integersBelow limit := by
  induction levels generalizing path v r with
  | zero => cases v <;> cases h
  | succ levels ih =>
    cases v with
    | object fields =>
      have h : readNode (readWithin levels) path fields = .ok r := h
      unfold readNode at h
      split at h
      . exact below_of_readGroup (fun _ _ _ hc hr => ih hc hr) hv h
      . obtain ⟨l, hl, rfl⟩ := map_eq_ok.mp h
        exact below_of_readLeaf hv hl
    | _ => cases h

theorem isWritable_of_read {v : Value} {r : Rule} (hv : v.isWritable) (h : read path v = .ok r) :
    r.toValue.isWritable :=
  below_of_readWithin hv h

end Rule

/-! ## What the written form leaves out -/

/-- A leaf without a value that its operator does not take. -/
def Leaf.bare (l : Leaf) : Leaf :=
  { l with value := if l.operator.takesValue then l.value else .null }

theorem Leaf.toValue_bare (l : Leaf) : l.bare.toValue = l.toValue := by
  unfold toValue bare
  split <;> simp_all

theorem Leaf.holds_bare (facts : Facts) (l : Leaf) : l.bare.holds facts = l.holds facts := by
  obtain ⟨domain, field, operator, value⟩ := l
  cases operator <;> rfl

namespace Rule

mutual

def bare : Rule → Rule
  | .leaf l => .leaf l.bare
  | .group logic children => .group logic (bareAll children)

def bareAll : List Rule → List Rule
  | [] => []
  | r :: rs => bare r :: bareAll rs

end

mutual

theorem toValue_bare : ∀ r : Rule, r.bare.toValue = r.toValue
  | .leaf l => l.toValue_bare
  | .group logic children => by rw [bare, toValue, toValue, toValues_bareAll children]

theorem toValues_bareAll : ∀ rs : List Rule, toValues (bareAll rs) = toValues rs
  | [] => rfl
  | r :: rs => by rw [bareAll, toValues, toValues, toValue_bare r, toValues_bareAll rs]

end

section

variable (facts : Facts)

mutual

theorem holds_bare : ∀ r : Rule, r.bare.holds facts = r.holds facts
  | .leaf l => l.holds_bare facts
  | .group .all children => allHold_bareAll children
  | .group .any children => anyHolds_bareAll children

theorem allHold_bareAll : ∀ rs : List Rule, allHold facts (bareAll rs) = allHold facts rs
  | [] => rfl
  | r :: rs => by rw [bareAll, allHold, allHold, holds_bare r, allHold_bareAll rs]

theorem anyHolds_bareAll : ∀ rs : List Rule, anyHolds facts (bareAll rs) = anyHolds facts rs
  | [] => rfl
  | r :: rs => by rw [bareAll, anyHolds, anyHolds, holds_bare r, anyHolds_bareAll rs]

end

end

/-! ## Reading the written form -/

theorem readName_text {α : Type} {ofName? : String → Option α} {s : String} {a : α} (hs : s ≠ "")
    (h : ofName? s = some a) (key path : String) : readName key path ofName? (.text s) = .ok a := by
  simp [readName, Value.isTrue, hs, h]

theorem readLeaf_toValue {l : Leaf} (h : l.IsTidy) (path : String) :
    ∃ fields, l.toValue = .object fields ∧ isGroup fields = false ∧ readLeaf path fields = .ok l.bare := by
  refine ⟨_, rfl, ?_, ?_⟩
  . split <;> simp [isGroup, Fields.has, Fields.get?_cons]
  . have hdomain : readName "domain" path Domain.ofName? (.text l.domain.name) = .ok l.domain := by
      apply readName_text _ (Domain.ofName?_name l.domain)
      cases l.domain <;> decide
    have hoperator : readName "operator" path Operator.ofName? (.text l.operator.name) = .ok l.operator := by
      apply readName_text _ (Operator.ofName?_name l.operator)
      cases l.operator <;> decide
    have hscalar := h.scalar
    by_cases htakes : l.operator.takesValue
    . simp [readLeaf, readField, readOperand, Fields.has, Fields.getD, Fields.get?_cons, hdomain,
        hoperator, h.trimmed, h.named, hscalar, htakes, Leaf.bare, bind, Except.bind, pure, Except.pure]
    . simp [readLeaf, readField, readOperand, Fields.has, Fields.getD, Fields.get?_cons, hdomain,
        hoperator, h.trimmed, h.named, htakes, isScalar, Leaf.bare, bind, Except.bind, pure, Except.pure]

theorem readChildren_toValues {readChild : String → Value → Except Fault Rule} {rs : List Rule}
    (h : ∀ r ∈ rs, ∀ path, readChild path r.toValue = .ok r.bare) (path : String) (i : Nat) :
    readChildren readChild path i (toValues rs) = .ok (bareAll rs) := by
  induction rs generalizing i with
  | nil => rfl
  | cons r rs ih =>
    rw [List.forall_mem_cons] at h
    rw [toValues, readChildren, h.1, bareAll]
    simp only [ih h.2, bind, Except.bind, pure, Except.pure]

theorem readNode_toValue {readChild : String → Value → Except Fault Rule} {logic : Logic}
    {children : List Rule} (hne : children ≠ [])
    (h : ∀ r ∈ children, ∀ path, readChild path r.toValue = .ok r.bare) (path : String) :
    readNode readChild path [("logic", .text logic.name), ("children", .list (toValues children))]
      = .ok (.group logic (bareAll children)) := by
  cases children with
  | nil => exact absurd rfl hne
  | cons r rs =>
    have hchildren := readChildren_toValues h path 0
    simp only [toValues] at hchildren
    simp [readNode, isGroup, readGroup, readLogic, Fields.has, Fields.getD, Fields.get?_cons, toValues,
      hchildren, bind, Except.bind, pure, Except.pure]

theorem Fits.readWithin_toValue {levels : Nat} {r : Rule} (h : r.Fits levels) (path : String) :
    readWithin levels path r.toValue = .ok r.bare := by
  induction levels generalizing r path with
  | zero => cases h
  | succ levels ih =>
    cases h with
    | leaf hl =>
      obtain ⟨fields, hfields, hgroup, hread⟩ := readLeaf_toValue hl path
      rw [toValue, hfields, readWithin, readNode, hgroup, hread]
      rfl
    | group hne hchildren =>
      exact readNode_toValue hne (fun r hr path => ih (hchildren r hr) path) path

theorem read_toValue {path : String} {v : Value} {r : Rule} (h : read path v = .ok r) (path' : String) :
    read path' r.toValue = .ok r.bare :=
  (fits_of_readWithin h).readWithin_toValue path'

theorem written_form_keeps_meaning {path : String} {v : Value} {r : Rule} (h : read path v = .ok r)
    (path' : String) :
    ∃ r', read path' r.toValue = .ok r' ∧ r'.toValue = r.toValue ∧
      ∀ facts, r'.holds facts = r.holds facts :=
  ⟨r.bare, read_toValue h path', r.toValue_bare, fun facts => r.holds_bare facts⟩

/-- A rule in other spellings, with a value that its second leaf does not take. -/
def spelledFreely : Value :=
  .object [("type", .text "composite"), ("logic", .text "and"), ("rules", .list [
    .object [("type", .text "lead_data"), ("field", .text " score "), ("operator", .text "="),
      ("value", .int 75)],
    groupForm (.text "Or") [
      .object [("domain", .text "activity"), ("field", .text "calls"), ("operator", .text "not_exists"),
        ("value", .int 3)]]])]

def spelledOut : Value :=
  groupForm (.text "AND") [
    .object [("domain", .text "entity-field"), ("field", .text "score"), ("operator", .text "=="),
      ("value", .int 75)],
    groupForm (.text "OR") [
      .object [("domain", .text "activity-metric"), ("field", .text "calls"),
        ("operator", .text "not-exists")]]]

theorem written_form_of_spelledFreely : ∃ r, read "rule" spelledFreely = .ok r ∧ r.toValue = spelledOut ∧
    ∃ r', read "rule" spelledOut = .ok r' ∧ r'.toValue = spelledOut ∧
      ∀ facts, r'.holds facts = r.holds facts := by
  have hwritten : (read "rule" spelledFreely).toOption.map toValue = some spelledOut := by decide +kernel
  cases hread : read "rule" spelledFreely with
  | error e =>
    rw [hread] at hwritten
    cases hwritten
  | ok r =>
    have hr : r.toValue = spelledOut := by simpa [hread, Except.toOption] using hwritten
    have hkeeps := written_form_keeps_meaning hread "rule"
    rw [hr] at hkeeps
    exact ⟨r, rfl, hr, hkeeps⟩

end Rule

end StageGate
