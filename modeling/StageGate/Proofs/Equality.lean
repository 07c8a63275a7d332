import StageGate.Proofs.Comparisons

/-!
This module contains that the loose equality of values does not depend on which of them comes first, and that every
value that can be compared equals itself. What is no number when it is read as one equals itself as a text.
-/

namespace StageGate

/-- Two computations that can only fail with one fault can be made in either order. -/
theorem bind_bind_comm {α β γ : Type} {x : Except Fault α} {y : Except Fault β} {e : Fault}
    (hx : ∀ e', x = .error e' → e' = e) (hy : ∀ e', y = .error e' → e' = e) (f : α → β → Except Fault γ) :
    (x >>= fun a => y >>= fun b => f a b) = y >>= fun b => x >>= fun a => f a b := by
  cases x with
  | ok a => cases y <;> rfl
  | error e₁ =>
    cases y with
    | ok b => rfl
    | error e₂ =>
      rw [hx e₁ rfl, hy e₂ rfl]
      rfl

namespace Value

variable {v w : Value}

/-! ## Either order -/

theorem equalBools?_bool_left (b : Bool) (v : Value) : equalBools? (.bool b) v = v.toBool?.map (b == ·) := by
  have hself : toBool? (.bool b) = some b := rfl
  unfold equalBools?
  dsimp only
  rw [hself]
  cases v.toBool? <;> rfl

theorem equalBools?_bool_right (v : Value) (b : Bool) : equalBools? v (.bool b) = v.toBool?.map (· == b) := by
  have hself : toBool? (.bool b) = some b := rfl
  cases v with
  | bool a => rfl
  | text s =>
    unfold equalBools?
    dsimp only
    rw [hself]
    cases toBool? (.text s) <;> rfl
  | _ => rfl

theorem equalBools?_comm (v w : Value) : equalBools? v w = equalBools? w v := by
  have hflip (b : Bool) (v : Value) : equalBools? (.bool b) v = equalBools? v (.bool b) := by
    rw [equalBools?_bool_left, equalBools?_bool_right]
    congr 1
    exact funext fun a => Bool.beq_comm
  cases v with
  | bool b => exact hflip b w
  | _ =>
    cases w with
    | bool b => exact (hflip b _).symm
    | _ => rfl

theorem toNumber_eq_error {e : Fault} (hv : v.isJson) (h : v.toNumber = .error e) : e = .broken .tooLarge := by
  cases v with
  | int n =>
    rw [toNumber] at h
    cases hx : finite? (Binary64.ofInt n) with
    | none =>
      rw [hx] at h
      cases h
      rfl
    | some x =>
      rw [hx] at h
      cases h
  | decimal => cases hv
  | _ => cases h

theorem written_eq_error {e : Fault} (h : v.written = .error e) : e = .broken .notAnInteger := by
  unfold written at h
  split at h
  . cases h
  . cases h
    rfl

theorem equalTexts_comm (v w : Value) :
    (do return (← v.written) == (← w.written) : Except Fault Bool) = do return (← w.written) == (← v.written) := by
  rw [bind_bind_comm (fun _ => written_eq_error) (fun _ => written_eq_error)]
  simp only [Bool.beq_comm]

theorem equalNumbersOrTexts_comm (hv : v.isJson) (hw : w.isJson) :
    equalNumbersOrTexts v w = equalNumbersOrTexts w v := by
  unfold equalNumbersOrTexts
  rw [bind_bind_comm (fun _ => toNumber_eq_error hv) (fun _ => toNumber_eq_error hw)]
  congr 1
  funext y?
  congr 1
  funext x?
  -- Only two numbers are compared as such, so one that is missing leads to the texts, whichever it is.
  cases x? with
  | none => cases y? <;> exact equalTexts_comm v w
  | some x =>
    cases y? with
    | none => exact equalTexts_comm v w
    | some y => exact congrArg Except.ok (Binary64.eq_comm x y)

theorem looseEquals_comm (hv : v.isJson) (hw : w.isJson) : v.looseEquals w = w.looseEquals v := by
  unfold looseEquals
  rw [Bool.or_comm, Bool.and_comm, equalBools?_comm, equalNumbersOrTexts_comm hv hw]

/-! ## Equal to itself -/

theorem equalBools?_self {b : Bool} (h : equalBools? v v = some b) : b = true := by
  cases v with
  | bool a =>
    rw [equalBools?_bool_left] at h
    cases h
    exact beq_self_eq_true a
  | _ => cases h

theorem equalNumbersOrTexts_self {b : Bool} (h : equalNumbersOrTexts v v = .ok b) : b = true := by
  unfold equalNumbersOrTexts at h
  rw [bind_eq_ok] at h
  obtain ⟨x?, hx, h⟩ := h
  rw [hx, ok_bind] at h
  cases x? with
  | some x =>
    cases h
    apply Binary64.eq_self
    rintro rfl
    cases isFinite_of_toNumber hx
  | none =>
    dsimp only at h
    rw [bind_eq_ok] at h
    obtain ⟨s, hs, h⟩ := h
    rw [hs] at h
    cases h
    exact beq_self_eq_true s

theorem looseEquals_self {b : Bool} (h : v.looseEquals v = .ok b) : b = true := by
  unfold looseEquals at h
  split at h
  . next hnull =>
    rw [Bool.or_self] at hnull
    rw [hnull] at h
    cases h
    rfl
  . split at h
    . next a ha =>
      cases h
      exact equalBools?_self ha
    . exact equalNumbersOrTexts_self h

/--
Two values that documents can hold are equal, unequal or not comparable in either order alike, down to the fault. A
value is equal to itself wherever it can be compared at all, which is unless an integer in it is too large for that.
-/
theorem looseEquals_symmetric_reflexive (hv : v.isJson) (hw : w.isJson) :
    v.looseEquals w = w.looseEquals v ∧ (∀ b, v.looseEquals v = .ok b → b = true) ∧
      (Answers (v.looseEquals v) ↔ v.isNull ∨ ¬v.IsImmense ∧ v.isWritable) := by
  refine ⟨looseEquals_comm hv hw, fun _ => looseEquals_self, ?_⟩
  rw [answers_looseEquals hv hv]
  unfold AreComparable
  tauto

/-- What is no number equals itself, and the text that spells it in either order. -/
theorem looseEquals_nan : (Value.text "nan").looseEquals (.float .nan) = .ok true ∧
    (Value.float .nan).looseEquals (.float .nan) = .ok true := by
  have hspelled : (Value.float .nan).looseEquals (.text "nan") = .ok true := by decide +kernel
  obtain ⟨hcomm, hself, hanswers⟩ := looseEquals_symmetric_reflexive (v := .float .nan) (w := .text "nan") rfl rfl
  obtain ⟨b, hb⟩ := hanswers.mpr (.inr ⟨id, rfl⟩)
  refine ⟨hcomm.symm.trans hspelled, ?_⟩
  rw [hb, hself b hb]

end Value

end StageGate
