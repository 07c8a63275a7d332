import StageGate.Proofs.Outcome
import StageGate.Store.Column
import StageGate.Store.Order

/-!
This module contains the numbers that a column of numbers keeps: they can be compared with each other and
counted on, and what equals one of them is kept as a number too.
-/

namespace StageGate

namespace Magnitude

theorem not_lt_of_lt {x y : Magnitude} (h : x.lt y) : y.lt x = false := by
  cases x <;> cases y <;> simp_all [lt]
  grind

theorem lt_of_not_lt {x y : Magnitude} (hx : x ≠ .nothing) (hy : y ≠ .nothing) (hne : x.eq y = false)
    (h : x.lt y = false) : y.lt x := by
  cases x <;> cases y <;> simp_all [lt, eq] <;> grind

theorem ne_nothing_of_eq {x y : Magnitude} (h : x.eq y) : x ≠ .nothing := by
  cases x <;> simp_all [eq]

end Magnitude

namespace Value

/-- A number that stands for something, and not a decimal one, which columns do not keep. -/
def isNumber (v : Value) : Bool :=
  !v.isDecimal && v.magnitude?.any (· ≠ .nothing)

@[simp]
theorem isNumber_int (n : Int) : isNumber (.int n) := by
  simp [isNumber, isDecimal, magnitude?, Magnitude.ofInt]

@[simp]
theorem isNumber_float {x : Binary64} : isNumber (.float x) ↔ x ≠ .nan := by
  cases x <;> simp [isNumber, isDecimal, magnitude?, Binary64.magnitude]

theorem exists_magnitude {v : Value} (h : v.isNumber) :
    v.isDecimal = false ∧ ∃ x, v.magnitude? = some x ∧ x ≠ .nothing := by
  simpa [isNumber, Option.any_eq_true] using h

section

variable {v w : Value}

theorem lt_of_magnitude? {x y : Magnitude} (hx : v.magnitude? = some x) (hy : w.magnitude? = some y)
    (hx' : x ≠ .nothing) (hy' : y ≠ .nothing) : v.lt w = .ok (v.isBelow w) := by
  have hm : magnitudes v w = .ok (x, y) := by simp [magnitudes, hx, hy, hx', hy']
  have hb : v.isBelow w = x.lt y := by simp [isBelow, hx, hy]
  unfold lt
  split
  . rw [isBelow_int]
  . simp [magnitude?] at hx
  . simp [magnitude?] at hx
  . rw [hm, hb]
    rfl

theorem lt_of_isNumber (hv : v.isNumber) (hw : w.isNumber) : v.lt w = .ok (v.isBelow w) := by
  obtain ⟨-, x, hx, hx'⟩ := exists_magnitude hv
  obtain ⟨-, y, hy, hy'⟩ := exists_magnitude hw
  exact lt_of_magnitude? hx hy hx' hy'

theorem insertInOrder_eq {vs : List Value} (h : ∀ w ∈ vs, v.lt w = .ok (v.isBelow w)) :
    insertInOrder v vs = .ok (Listing.insert isBelow v vs) := by
  induction vs with
  | nil => rfl
  | cons w ws ih =>
    rw [List.forall_mem_cons] at h
    rw [insertInOrder, Listing.insert, h.1, ih h.2]
    cases v.isBelow w <;> rfl

theorem insertInOrder_of_isNumber {vs : List Value} (hv : v.isNumber) (hvs : ∀ w ∈ vs, w.isNumber) :
    insertInOrder v vs = .ok (Listing.insert isBelow v vs) :=
  insertInOrder_eq fun w hw => lt_of_isNumber hv (hvs w hw)

/-- Values of which each two can be compared by what they stand for are sorted as a listing is. -/
theorem sort_eq {P : Value → Prop} (hlt : ∀ v w, P v → P w → v.lt w = .ok (v.isBelow w)) {vs : List Value}
    (h : ∀ v ∈ vs, P v) : sort vs = .ok (Listing.inOrder isBelow vs.reverse) := by
  -- By induction on the rest that is to be inserted, whatever has been sorted before it.
  have hinsert : ∀ {sorted : List Value}, (∀ w ∈ sorted, P w) →
      vs.foldlM (fun sorted v => insertInOrder v sorted) sorted =
        .ok (vs.foldl (fun sorted v => Listing.insert isBelow v sorted) sorted) := by
    induction vs with
    | nil => exact fun _ => rfl
    | cons v vs ih =>
      intro sorted hsorted
      rw [List.forall_mem_cons] at h
      rw [List.foldlM_cons, insertInOrder_eq fun w hw => hlt v w h.1 (hsorted w hw)]
      apply ih h.2
      intro w hw
      rcases Listing.mem_insert.mp hw with rfl | hw
      . exact h.1
      . exact hsorted w hw
  rw [Listing.inOrder, List.foldr_reverse]
  exact hinsert (by simp)

theorem exists_sort {vs : List Value} (h : ∀ v ∈ vs, v.isNumber) : ∃ ws, sort vs = .ok ws :=
  ⟨_, sort_eq (fun _ _ => lt_of_isNumber) h⟩

theorem same_of_isNumber (hv : v.isNumber) : v.same w = v.sameNumber w := by
  obtain ⟨-, x, hx, -⟩ := exists_magnitude hv
  exact same_of_magnitude_left (by rw [hx]; rfl)

theorem same_int (m n : Int) : same (.int m) (.int n) = decide (m = n) := by
  rw [same_of_isNumber (isNumber_int m), Bool.eq_iff_iff]
  simp [sameNumber, magnitude?, Magnitude.ofInt, Magnitude.eq]

theorem same_comm (hv : v.isNumber) (hw : w.isNumber) : v.same w = w.same v := by
  rw [same_of_isNumber hv, same_of_isNumber hw]
  unfold sameNumber
  cases v.magnitude? <;> cases w.magnitude? <;> simp [Magnitude.eq_comm]

theorem isBelow_of_not_isBelow (hv : v.isNumber) (hw : w.isNumber) (hne : v.same w = false)
    (h : v.isBelow w = false) : w.isBelow v := by
  rw [same_of_isNumber hv] at hne
  obtain ⟨-, x, hx, hx'⟩ := exists_magnitude hv
  obtain ⟨-, y, hy, hy'⟩ := exists_magnitude hw
  simp only [sameNumber, isBelow, hx, hy] at hne h ⊢
  exact Magnitude.lt_of_not_lt hx' hy' hne h

theorem not_isBelow_of_isBelow (h : v.isBelow w) : w.isBelow v = false := by
  unfold isBelow at *
  cases hx : v.magnitude? with
  | none => simp
  | some x =>
    cases hy : w.magnitude? with
    | none => simp
    | some y =>
      rw [hx, hy] at h
      exact Magnitude.not_lt_of_lt h

theorem exists_succ (h : v.isNumber) : ∃ next, v.succ = .ok next := by
  obtain ⟨hd, x, hx, -⟩ := exists_magnitude h
  cases v with
  | int n => exact ⟨_, rfl⟩
  | bool b => exact ⟨_, rfl⟩
  | float x =>
    have hone : (Binary64.ofInt (-1)).bounded?.isSome := by decide +kernel
    obtain ⟨y, hy⟩ := Option.isSome_iff_exists.mp hone
    have hy : toFloat (.int (-1)) = .ok y := by simp [toFloat, whole?, toFloat.orElse, hy]
    have hself : toFloat (.float x) = .ok x := rfl
    refine ⟨.float (x.sub y), ?_⟩
    simp only [succ, sub, whole?, hself, hy, bind, Except.bind, pure, Except.pure]
  | decimal x => simp [isDecimal] at hd
  | _ => simp [magnitude?] at hx

theorem magnitude?_of_subDecimal {x y : Decimal} (h : subDecimal x y = .ok v) : v.magnitude?.isSome := by
  unfold subDecimal at h
  split at h <;> cases h
  rfl

theorem magnitude?_of_succ {next : Value} (h : v.succ = .ok next) : next.magnitude?.isSome := by
  unfold succ sub at h
  split at h
  . cases h
    rfl
  . next hw => cases hw
  . exact magnitude?_of_subDecimal h
  . next hw => cases hw
  . split at h
    . cases h
      rfl
    . simp only [bind_eq_ok, pure, Except.pure, Except.ok.injEq] at h
      obtain ⟨_, -, _, -, rfl⟩ := h
      rfl

end

end Value

namespace Column

theorem isNumber_numberOf {x : Binary64} (h : x ≠ .nan) : (numberOf x).isNumber := by
  unfold numberOf
  split
  . exact absurd rfl h
  . split
    . split
      . exact Value.isNumber_int _
      . exact Value.isNumber_float.mpr h
    . exact Value.isNumber_float.mpr h

theorem isNumber_of_same {order next kept : Value} (hnext : next.magnitude?.isSome)
    (hsame : order.same next) (hkept : number order = .ok kept) : kept.isNumber := by
  obtain ⟨y, hy⟩ := Option.isSome_iff_exists.mp hnext
  rw [Value.same_of_magnitude_right hnext, Value.sameNumber] at hsame
  cases hx : order.magnitude? with
  | none => simp [hx] at hsame
  | some x =>
    have hx' : x ≠ .nothing := by
      simp only [hx, hy] at hsame
      exact Magnitude.ne_nothing_of_eq hsame
    cases order with
    | bool b =>
      cases hkept
      exact Value.isNumber_int _
    | int n =>
      simp only [number, bind_eq_ok, pure, Except.pure, Except.ok.injEq] at hkept
      obtain ⟨_, -, rfl⟩ := hkept
      exact Value.isNumber_int n
    | float z =>
      cases hkept
      apply isNumber_numberOf
      rintro rfl
      cases hx
      exact hx' rfl
    | decimal z => cases hkept
    | _ => simp [Value.magnitude?] at hx

/-! ## Ids -/

theorem checkInt_eq_ok {n : Int} : checkInt n = .ok () ↔ -wordLimit ≤ n ∧ n < wordLimit := by
  unfold checkInt
  split <;> simp_all

theorem checkInt_eq_error {n : Int} (h : checkInt n ≠ .ok ()) : checkInt n = .error (.broken .tooLarge) := by
  unfold checkInt at *
  split at h
  . exact absurd rfl h
  . next hn => rw [if_neg hn]

theorem checkInt_of_numberOf {x : Binary64} {n : Int} (h : numberOf x = .int n) : checkInt n = .ok () := by
  unfold numberOf at h
  split at h
  . cases h
  . split at h
    . split at h
      . next hfits =>
        cases h
        simp only [Bool.and_eq_true, decide_eq_true_eq] at hfits
        rw [checkInt_eq_ok]
        omega
      . cases h
    . cases h

theorem checkInt_of_numberOfText {s : String} {n : Int} (h : numberOfText s = .int n) :
    checkInt n = .ok () := by
  unfold numberOfText at h
  dsimp only at h
  split at h
  . cases h
  . next numeral _ =>
    generalize (if (Numeral.takeSign (Text.strip isPadding s.toList)).1 = true then
      -(numeral.coefficient : Int) else numeral.coefficient) = m at h
    split at h
    . next hfits =>
      cases h
      simp only [Bool.and_eq_true, decide_eq_true_eq] at hfits
      rw [checkInt_eq_ok]
      exact ⟨hfits.1.2, hfits.2⟩
    . exact checkInt_of_numberOf h

theorem checkInt_of_number {v : Value} {n : Int} (h : number v = .ok (.int n)) : checkInt n = .ok () := by
  cases v with
  | bool b =>
    cases b <;> cases h <;> rfl
  | int m =>
    simp only [number, bind_eq_ok, pure, Except.pure, Except.ok.injEq, Value.int.injEq] at h
    obtain ⟨_, hm, rfl⟩ := h
    exact hm
  | float x =>
    simp only [number, Except.ok.injEq] at h
    exact checkInt_of_numberOf h
  | text s =>
    simp only [number, bind_eq_ok, pure, Except.pure, Except.ok.injEq] at h
    obtain ⟨_, -, h⟩ := h
    exact checkInt_of_numberOfText h
  | _ => cases h

end Column

end StageGate
