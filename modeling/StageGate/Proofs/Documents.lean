import Mathlib.Data.List.Nodup
import StageGate.Api.Request
import StageGate.Proofs.NormalForm
import StageGate.Proofs.Outcome

/-!
This module contains that what is read from a text of JSON can be written as a document again: it has no decimal
number in it, and no member twice. So can the documents that requests carry.
-/

namespace StageGate

namespace Fields

variable {fields others : Fields} {key name : String} {v : Value}

theorem mem_of_get? (h : get? fields key = some v) : (key, v) ∈ fields := by
  induction fields with
  | nil => cases h
  | cons f fs ih =>
    obtain ⟨k, w⟩ := f
    rw [get?_cons] at h
    split at h
    . next hk =>
      cases h
      simp [hk]
    . exact List.mem_cons_of_mem _ (ih h)

theorem get?_eq_none : get? fields key = none ↔ ∀ v, (key, v) ∉ fields := by
  constructor
  . intro h v hv
    unfold get? at h
    rw [List.lookup_eq_none_iff] at h
    simpa using h _ hv
  . intro h
    cases hv : get? fields key with
    | none => rfl
    | some v => exact absurd (mem_of_get? hv) (h v)

theorem get?_set : get? (set fields key v) name = if name = key then some v else get? fields name := by
  induction fields with
  | nil => simp [set, get?_cons]
  | cons f fs ih =>
    obtain ⟨k, w⟩ := f
    unfold set
    split
    . next hk =>
      subst hk
      rw [get?_cons, get?_cons]
      split <;> rfl
    . next hk =>
      rw [get?_cons, get?_cons, ih]
      by_cases h : name = k
      . simp [h, hk]
      . simp [h]

theorem has_set : has (set fields key v) name = (decide (name = key) || has fields name) := by
  unfold has
  rw [get?_set]
  split <;> simp_all

/-- The last of the members that are set counts, and what was there before only if none of them is. -/
theorem get?_merge : get? (merge fields others) key = (get? others.reverse key).or (get? fields key) := by
  induction others generalizing fields with
  | nil => rfl
  | cons f fs ih =>
    obtain ⟨k, w⟩ := f
    have hmerge : merge fields ((k, w) :: fs) = merge (set fields k w) fs := rfl
    rw [hmerge, ih, get?_set, List.reverse_cons]
    unfold get?
    rw [List.lookup_append, Option.or_assoc]
    congr 1
    change _ = (get? [(k, w)] key).or _
    rw [get?_cons]
    split <;> rfl

theorem get?_filter (p : String → Bool) (fields : Fields) (key : String) :
    get? (fields.filter fun f => p f.1) key = if p key then get? fields key else none := by
  induction fields with
  | nil => simp
  | cons f fs ih =>
    obtain ⟨k, v⟩ := f
    rw [List.filter_cons, get?_cons]
    split
    . next hk =>
      rw [get?_cons, ih]
      by_cases h : key = k
      . simp_all
      . simp [h]
    . next hk =>
      rw [ih]
      by_cases h : key = k
      . simp_all
      . simp [h]

/-! ### Members with names of their own -/

theorem has_eq_false : has fields key = false ↔ key ∉ fields.map (·.1) := by
  unfold has
  rw [Option.isSome_eq_false_iff, Option.isNone_iff_eq_none, get?_eq_none]
  simp

theorem nodup_set (h : (fields.map (·.1)).Nodup) : ((set fields key v).map (·.1)).Nodup := by
  induction fields with
  | nil => simp [set]
  | cons f fs ih =>
    obtain ⟨k, w⟩ := f
    rw [List.map_cons, List.nodup_cons, ← has_eq_false] at h
    unfold set
    split
    . next hk =>
      subst hk
      rw [List.map_cons, List.nodup_cons, ← has_eq_false]
      exact h
    . next hk =>
      rw [List.map_cons, List.nodup_cons, ← has_eq_false, has_set, h.1]
      exact ⟨by simp [hk], ih h.2⟩

theorem nodup_merge (h : (fields.map (·.1)).Nodup) : ((merge fields others).map (·.1)).Nodup := by
  induction others generalizing fields with
  | nil => exact h
  | cons f fs ih => exact ih (nodup_set h)

theorem get?_of_mem (h : (fields.map (·.1)).Nodup) (hmem : (key, v) ∈ fields) : get? fields key = some v := by
  induction fields with
  | nil => cases hmem
  | cons f fs ih =>
    obtain ⟨k, w⟩ := f
    rw [List.map_cons, List.nodup_cons] at h
    rw [get?_cons]
    rcases List.mem_cons.mp hmem with heq | htail
    . cases heq
      rw [if_pos rfl]
    . rw [if_neg, ih h.2 htail]
      rintro rfl
      exact h.1 (List.mem_map.mpr ⟨_, htail, rfl⟩)

theorem get?_reverse (h : (fields.map (·.1)).Nodup) : get? fields.reverse key = get? fields key := by
  have hreverse : (fields.reverse.map (·.1)).Nodup := by
    rw [List.map_reverse]
    exact List.nodup_reverse.mpr h
  ext v
  constructor
  . intro hv
    exact get?_of_mem h (List.mem_reverse.mp (mem_of_get? hv))
  . intro hv
    exact get?_of_mem hreverse (List.mem_reverse.mpr (mem_of_get? hv))

theorem nodup_of_haveJson (h : Value.haveJson fields) : (fields.map (·.1)).Nodup := by
  induction fields with
  | nil => simp
  | cons f fs ih =>
    obtain ⟨k, v⟩ := f
    simp only [Value.haveJson, Bool.and_eq_true, Bool.not_eq_true'] at h
    rw [List.map_cons, List.nodup_cons, ← has_eq_false]
    exact ⟨h.1.1, ih h.2⟩

end Fields

namespace Value

theorem areJson_iff {vs : List Value} : areJson vs ↔ ∀ v ∈ vs, v.isJson := by
  induction vs with
  | nil => simp [areJson]
  | cons v vs ih => simp [areJson, ih]

theorem haveJson_set {fields : Fields} {v : Value} (h : haveJson fields) (hv : v.isJson) (key : String) :
    haveJson (Fields.set fields key v) := by
  induction fields with
  | nil => simp [Fields.set, haveJson, hv, Fields.has, Fields.get?]
  | cons f fs ih =>
    obtain ⟨k, w⟩ := f
    simp only [haveJson, Bool.and_eq_true, Bool.not_eq_true'] at h
    unfold Fields.set
    split
    . next hk =>
      subst hk
      simp [haveJson, h.1.1, hv, h.2]
    . next hk => simp [haveJson, Fields.has_set, hk, h.1.1, h.1.2, ih h.2]

end Value

/-! ## Reading texts -/

namespace Json

open Value

theorem isJson_of_readNumber {negative : Bool} {cs rest : List Char} {v : Value}
    (h : readNumber negative cs = .ok (v, rest)) : v.isJson := by
  unfold readNumber at h
  dsimp only at h
  -- Whatever digits there are, the number is an integer or a float.
  repeat' split at h
  all_goals cases h
  all_goals rfl

theorem isJson_of_readScalar {cs rest : List Char} {v : Value} (h : readScalar cs = .ok (v, rest)) : v.isJson := by
  unfold readScalar at h
  split at h
  . next word w hword =>
    cases h
    have hmem := List.mem_of_find?_eq_some hword
    have hwords : ∀ w ∈ words, w.2.isJson := by decide
    exact hwords _ hmem
  . split at h
    . obtain ⟨⟨s, _⟩, -, hv⟩ := map_eq_ok.mp h
      cases hv
      rfl
    . exact isJson_of_readNumber h
    . exact isJson_of_readNumber h

/-- What is known of the readings that so much fuel allows, of one value and of what is in a list or an object. -/
structure Gives (fuel : Nat) : Prop where
  value : ∀ {levels cs v rest}, readValue fuel levels cs = .ok (v, rest) → v.isJson
  items : ∀ {levels read cs v rest}, areJson read → readItems fuel levels read cs = .ok (v, rest) → v.isJson
  members : ∀ {levels read cs v rest}, haveJson read → readMembers fuel levels read cs = .ok (v, rest) → v.isJson

namespace Gives

variable {fuel : Nat}

theorem value_succ (h : Gives fuel) {levels : Nat} {cs rest : List Char} {v : Value}
    (hread : readValue (fuel + 1) levels cs = .ok (v, rest)) : v.isJson := by
  unfold readValue at hread
  split at hread
  . cases hread
  . cases hread
  . split at hread
    . cases hread
      rfl
    . exact h.items rfl hread
  . split at hread
    . cases hread
      rfl
    . exact h.members rfl hread
  . exact isJson_of_readScalar hread

theorem items_succ (h : Gives fuel) {levels : Nat} {read : List Value} {cs rest : List Char} {v : Value}
    (hjson : areJson read) (hread : readItems (fuel + 1) levels read cs = .ok (v, rest)) : v.isJson := by
  unfold readItems at hread
  split at hread
  . cases hread
  next w rest' hw =>
  have hall : areJson (w :: read) := by simp [areJson, h.value hw, hjson]
  split at hread
  . exact h.items hall hread
  . cases hread
    change areJson (w :: read).reverse
    rw [areJson_iff] at hall ⊢
    intro x hx
    exact hall x (List.mem_reverse.mp hx)
  . cases hread

theorem members_succ (h : Gives fuel) {levels : Nat} {read : Fields} {cs rest : List Char} {v : Value}
    (hjson : haveJson read) (hread : readMembers (fuel + 1) levels read cs = .ok (v, rest)) : v.isJson := by
  unfold readMembers at hread
  split at hread
  . split at hread
    . cases hread
    . split at hread
      . split at hread
        . cases hread
        . next w rest' hw =>
          have hset := haveJson_set hjson (h.value hw)
          split at hread
          . exact h.members (hset _) hread
          . cases hread
            exact hset _
          . cases hread
      . cases hread
  . cases hread

end Gives

theorem gives (fuel : Nat) : Gives fuel := by
  induction fuel with
  | zero => constructor <;> simp [readValue, readItems, readMembers]
  | succ fuel ih => exact ⟨ih.value_succ, ih.items_succ, ih.members_succ⟩

theorem isJson_of_readWithin {levels : Nat} {s : String} {v : Value} (h : readWithin levels s = .ok v) : v.isJson := by
  unfold readWithin at h
  dsimp only at h
  split at h
  . cases h
  next w rest hread =>
  split at h
  . cases h
    exact (gives _).value hread
  . cases h

end Json

/-! ## Documents of requests -/

namespace Api

theorem Body.isJson_of_document {b : Body} {levels : Nat} {v : Value} (h : b.document levels = .ok v) : v.isJson := by
  unfold document at h
  split at h
  . cases h
    rfl
  . split at h
    . next w hw =>
      cases h
      rw [Option.map_eq_some_iff] at hw
      obtain ⟨s, -, hs⟩ := hw
      exact Json.isJson_of_readWithin hs
    . cases h
    . cases h
      rfl

theorem Request.isJson_of_data {r : Request} {levels : Nat} {v : Value} (h : r.data levels = .ok v) : v.isJson := by
  unfold data at h
  split at h
  . cases h
    rfl
  . next b _ =>
    obtain ⟨w, hw, rfl⟩ := map_eq_ok.mp h
    unfold Value.orElse
    split
    . exact b.isJson_of_document hw
    . rfl

end Api

end StageGate
