import Mathlib.Data.List.Nodup
import Mathlib.Data.List.Perm.Basic
import StageGate.Configuration
import StageGate.Proofs.Rounding

/-!
This module contains the orders that stages are given one after the other. Each of them follows the one before
it, and together they are without gaps, so they are the places from one on. What the column keeps of them is
counted on from there in the same way.
-/

namespace StageGate

/-! ## Listing what is in order -/

namespace Listing

variable {α : Type} {before : α → α → Bool}

theorem insert_of_behind {a : α} {as : List α} (h : ∀ b ∈ as, before a b = false) :
    insert before a as = as ++ [a] := by
  induction as with
  | nil => rfl
  | cons b bs ih =>
    rw [List.forall_mem_cons] at h
    rw [insert, h.1, ih h.2]
    rfl

theorem insert_perm (a : α) (as : List α) : (insert before a as).Perm (a :: as) := by
  induction as with
  | nil => rfl
  | cons b bs ih =>
    rw [insert]
    split
    . rfl
    . exact (ih.cons b).trans (List.Perm.swap a b bs)

theorem inOrder_perm (as : List α) : (inOrder before as).Perm as := by
  induction as with
  | nil => rfl
  | cons a as ih => exact (insert_perm a (inOrder before as)).trans (ih.cons a)

@[simp]
theorem length_inOrder {as : List α} : (inOrder before as).length = as.length :=
  (inOrder_perm as).length_eq

theorem pairwise_insert {R : α → α → Prop} (htrans : ∀ a b c, R a b → R b c → R a c) {a : α} {as : List α}
    (ha : ∀ b ∈ as, if before a b then R a b else R b a) (h : as.Pairwise R) : (insert before a as).Pairwise R := by
  induction as with
  | nil => exact List.pairwise_singleton R a
  | cons b bs ih =>
    rw [List.forall_mem_cons] at ha
    rw [List.pairwise_cons] at h
    rw [insert]
    split
    . next hbefore =>
      rw [if_pos hbefore] at ha
      rw [List.pairwise_cons, List.forall_mem_cons, List.pairwise_cons]
      exact ⟨⟨ha.1, fun c hc => htrans a b c ha.1 (h.1 c hc)⟩, h⟩
    . next hbehind =>
      rw [if_neg hbehind] at ha
      rw [List.pairwise_cons]
      refine ⟨fun c hc => ?_, ih ha.2 h.2⟩
      rcases mem_insert.mp hc with rfl | hc
      . exact ha.1
      . exact h.1 c hc

/-- What is in order is so in every order that says of each two which of them stands first. -/
theorem pairwise_inOrder {R : α → α → Prop} (htrans : ∀ a b c, R a b → R b c → R a c) {as : List α}
    (h : as.Pairwise fun a b => if before a b then R a b else R b a) : (inOrder before as).Pairwise R := by
  induction as with
  | nil => exact List.Pairwise.nil
  | cons a as ih =>
    rw [List.pairwise_cons] at h
    apply pairwise_insert htrans _ (ih h.2)
    intro b hb
    exact h.1 b (mem_inOrder.mp hb)

theorem insert_map {β : Type} (f : β → α) (b : β) (bs : List β) :
    insert before (f b) (bs.map f) = (insert (fun x y => before (f x) (f y)) b bs).map f := by
  induction bs with
  | nil => rfl
  | cons c cs ih =>
    rw [List.map_cons, insert, insert]
    split
    . rfl
    . rw [ih, List.map_cons]

theorem inOrder_map {β : Type} (f : β → α) (bs : List β) :
    inOrder before (bs.map f) = (inOrder (fun x y => before (f x) (f y)) bs).map f := by
  induction bs with
  | nil => rfl
  | cons b bs ih =>
    have hrest : inOrder before ((b :: bs).map f) = insert before (f b) (inOrder before (bs.map f)) := rfl
    rw [hrest, ih, insert_map]
    rfl

theorem inOrder_of_pairwise {as : List α} (h : as.Pairwise fun a b => before a b) : inOrder before as = as := by
  induction as with
  | nil => rfl
  | cons a as ih =>
    have hrest : inOrder before (a :: as) = insert before a (inOrder before as) := rfl
    rw [List.pairwise_cons] at h
    rw [hrest, ih h.2]
    cases as with
    | nil => rfl
    | cons b bs => rw [insert, if_pos (h.1 b (by simp))]

end Listing

namespace Value

theorem insertInOrder_perm {v : Value} {vs ws : List Value} (h : insertInOrder v vs = .ok ws) :
    ws.Perm (v :: vs) := by
  induction vs generalizing ws with
  | nil =>
    cases h
    rfl
  | cons w vs ih =>
    unfold insertInOrder at h
    rw [bind_eq_ok] at h
    obtain ⟨isBelow, -, h⟩ := h
    split at h
    . cases h
      rfl
    . simp only [bind_eq_ok, pure, Except.pure, Except.ok.injEq] at h
      obtain ⟨inserted, hinserted, rfl⟩ := h
      exact ((ih hinserted).cons w).trans (List.Perm.swap v w vs)

theorem sort_perm {vs ws : List Value} (h : sort vs = .ok ws) : ws.Perm vs := by
  -- By induction on the rest that is to be inserted, whatever has been sorted before it.
  have hinsert : ∀ {sorted : List Value},
      vs.foldlM (fun sorted v => insertInOrder v sorted) sorted = .ok ws → ws.Perm (sorted ++ vs) := by
    clear h
    induction vs with
    | nil =>
      intro sorted h
      cases h
      simp
    | cons v vs ih =>
      intro sorted h
      rw [List.foldlM_cons, bind_eq_ok] at h
      obtain ⟨inserted, hinserted, h⟩ := h
      have hmiddle : (v :: sorted ++ vs).Perm (sorted ++ v :: vs) := List.perm_middle.symm
      exact (ih h).trans (((insertInOrder_perm hinserted).append_right vs).trans hmiddle)
  exact hinsert h

theorem sort_of_pairwise {vs : List Value} (hnumber : ∀ v ∈ vs, v.isNumber)
    (h : vs.Pairwise fun v w => w.isBelow v = false) : sort vs = .ok vs := by
  have hinsert : ∀ {sorted : List Value}, (∀ w ∈ sorted, w.isNumber) →
      (sorted ++ vs).Pairwise (fun v w => w.isBelow v = false) →
      vs.foldlM (fun sorted v => insertInOrder v sorted) sorted = .ok (sorted ++ vs) := by
    clear h
    induction vs with
    | nil =>
      intro sorted _ _
      rw [List.append_nil]
      rfl
    | cons v vs ih =>
      intro sorted hsorted h
      rw [List.forall_mem_cons] at hnumber
      have hbehind : ∀ w ∈ sorted, v.isBelow w = false := fun w hw =>
        (List.pairwise_append.mp h).2.2 w hw v (by simp)
      rw [List.append_cons] at h ⊢
      rw [List.foldlM_cons, insertInOrder_of_isNumber hnumber.1 hsorted, Listing.insert_of_behind hbehind]
      apply ih hnumber.2 _ h
      intro w hw
      rw [List.mem_append, List.mem_singleton] at hw
      rcases hw with hw | rfl
      . exact hsorted w hw
      . exact hnumber.1
  exact hinsert (by simp) (by simpa using h)

end Value

/-! ## Runs of numbers -/

open Value

def countFrom (first : Int) (k : Nat) : List Int :=
  (List.range k).map fun (i : Nat) => first + i

section

variable {first : Int} {k : Nat}

@[simp]
theorem length_countFrom : (countFrom first k).length = k := by
  simp [countFrom]

theorem mem_countFrom {m : Int} : m ∈ countFrom first k ↔ first ≤ m ∧ m < first + k := by
  rw [countFrom, List.mem_map]
  constructor
  . rintro ⟨i, hi, rfl⟩
    rw [List.mem_range] at hi
    omega
  . intro hm
    exact ⟨(m - first).toNat, by rw [List.mem_range]; omega, by omega⟩

theorem pairwise_countFrom : (countFrom first k).Pairwise (· < ·) := by
  rw [countFrom, List.pairwise_map]
  apply List.pairwise_lt_range.imp
  intro i j hij
  omega

theorem nodup_countFrom : (countFrom first k).Nodup :=
  pairwise_countFrom.imp Int.ne_of_lt

end

namespace Pipeline

variable {first : Int} {vs : List Value}

theorem isRun_iff : isRun first vs ↔ ∀ (i : Nat) v, vs[i]? = some v → v.Stands (first + i) := by
  induction vs generalizing first with
  | nil => simp [isRun]
  | cons v vs ih =>
    rw [isRun, Bool.and_eq_true, same_int_iff, ih]
    constructor
    . rintro ⟨hv, hvs⟩ i w hw
      cases i with
      | zero =>
        rw [List.getElem?_cons_zero, Option.some.injEq] at hw
        rw [← hw]
        simpa using hv
      | succ i =>
        have := hvs i w hw
        rwa [Int.add_assoc, Int.add_comm 1] at this
    . intro h
      refine ⟨by simpa using h 0 v rfl, fun i w hw => ?_⟩
      have := h (i + 1) w hw
      rwa [Int.add_assoc, Int.add_comm 1]

theorem isRun_iff_forall₂ : isRun first vs ↔ List.Forall₂ Stands vs (countFrom first vs.length) := by
  rw [isRun_iff, List.forall₂_iff_get]
  constructor
  . intro h
    refine ⟨by simp, fun i hi _ => ?_⟩
    have := h i vs[i] (List.getElem?_eq_getElem hi)
    simpa [countFrom] using this
  . rintro ⟨-, h⟩ i v hv
    obtain ⟨hi, rfl⟩ := List.getElem?_eq_some_iff.mp hv
    have := h i hi (by simpa using hi)
    simpa [countFrom] using this

/-- If values can be sorted into a run, they stand for the numbers of that run. -/
theorem exists_run {sorted : List Value} (hsort : Value.sort vs = .ok sorted) (hrun : isRun first sorted) :
    ∃ ns, List.Forall₂ Stands vs ns ∧ ns.Perm (countFrom first ns.length) := by
  have hperm := Value.sort_perm hsort
  obtain ⟨ns, hstands, hns⟩ := List.perm_comp_forall₂ hperm.symm (isRun_iff_forall₂.mp hrun)
  refine ⟨ns, hstands, ?_⟩
  rwa [hperm.length_eq, hstands.length_eq] at hns

theorem isContiguous_eq_ok :
    isContiguous vs = .ok true ↔ ∃ first, isRun first vs ∧ ∀ v ∈ vs.head?, v.whole? = some first := by
  cases vs with
  | nil => simp [isContiguous, isRun]
  | cons v vs =>
    unfold isContiguous
    cases hv : v.whole? with
    | none => simp [hv]
    | some first =>
      simp only [List.head?_cons, Option.mem_some_iff, forall_eq', hv, Option.some.injEq, Except.ok.injEq]
      simp

theorem areDistinct_of_pairwise (hkey : ∀ v ∈ vs, v.isKey) (h : vs.Pairwise fun v w => v.same w = false) :
    areDistinct vs = .ok true := by
  induction vs with
  | nil => rfl
  | cons v vs ih =>
    rw [List.forall_mem_cons] at hkey
    rw [List.pairwise_cons] at h
    have hany : vs.any v.same = false := by
      rw [List.any_eq_false]
      intro w hw
      rw [h.1 w hw]
      decide
    unfold areDistinct
    rw [ih hkey.2 h.2, hkey.1, hany]
    rfl

/-- What is without gaps is distinct as well. -/
theorem areDistinct_of_isRun (h : isRun first vs) : areDistinct vs = .ok true := by
  rw [isRun_iff] at h
  apply areDistinct_of_pairwise
  . intro v hv
    obtain ⟨i, hi⟩ := List.getElem?_of_mem hv
    exact (h i v hi).isKey
  . rw [List.pairwise_iff_getElem]
    intro i j hi hj hij
    apply (h i _ (List.getElem?_eq_getElem hi)).not_same (h j _ (List.getElem?_eq_getElem hj))
    omega

end Pipeline

/-- Numbers of which the first one is one, and each other one is what counting on from the one before it comes to. -/
structure CountsOn (ns : List Int) : Prop where
  first : ∀ n, ns[0]? = some n → n = 1
  next : ∀ (k : Nat) n m, ns[k]? = some n → ns[k + 1]? = some m → 0 < n → m = n + 1 ∨ Rounds (n + 1) m

namespace CountsOn

variable {ns : List Int}

theorem pos (h : CountsOn ns) {k : Nat} {n : Int} (hn : ns[k]? = some n) : 0 < n := by
  induction k generalizing n with
  | zero =>
    rw [h.first n hn]
    decide
  | succ k ih =>
    have hk : k < ns.length := by
      have := (List.getElem?_eq_some_iff.mp hn).1
      omega
    have hbefore := ih (List.getElem?_eq_getElem hk)
    rcases h.next k _ n (List.getElem?_eq_getElem hk) hn hbefore with hnext | hnext
    . omega
    . exact hnext.1

theorem eq_one_of_run (h : CountsOn ns) {first : Int} (hrun : ns.Perm (countFrom first ns.length))
    (hpos : 0 < ns.length) : first = 1 := by
  have hone := h.first _ (List.getElem?_eq_getElem hpos)
  have hle := (mem_countFrom.mp (hrun.mem_iff.mp (List.getElem_mem hpos))).1
  obtain ⟨j, hj⟩ := List.getElem?_of_mem (hrun.mem_iff.mpr (mem_countFrom.mpr ⟨Int.le_refl first, by omega⟩))
  have := h.pos hj
  omega

/-- If such numbers are without gaps, none of them was rounded to another one. -/
theorem eq_succ (h : CountsOn ns) {first : Int} (hrun : ns.Perm (countFrom first ns.length)) {k : Nat} {n : Int}
    (hn : ns[k]? = some n) : n = k + 1 := by
  induction k generalizing n with
  | zero =>
    rw [h.first n hn]
    rfl
  | succ k ih =>
    have hlt := (List.getElem?_eq_some_iff.mp hn).1
    have hk : k < ns.length := by omega
    have hbefore := ih (List.getElem?_eq_getElem hk)
    rcases h.next k _ n (List.getElem?_eq_getElem hk) hn (by omega) with hnext | hnext
    . omega
    rw [hbefore] at hnext
    -- The next number is somewhere, and wherever it is, it was counted on from this one, or is no rounded one.
    have hsome : (k : Int) + 1 + 1 ∈ ns := by
      have := h.eq_one_of_run hrun (by omega)
      rw [hrun.mem_iff, mem_countFrom]
      omega
    obtain ⟨l, hl⟩ := List.getElem?_of_mem hsome
    cases l with
    | zero =>
      have := h.first _ hl
      omega
    | succ l =>
      have hlt' := (List.getElem?_eq_some_iff.mp hl).1
      have hl' : l < ns.length := by omega
      rcases h.next l _ _ (List.getElem?_eq_getElem hl') hl (h.pos (List.getElem?_eq_getElem hl')) with hfrom | hfrom
      . have heq : ns[l] = ns[k] := by omega
        rw [(hrun.nodup_iff.mpr nodup_countFrom).getElem_inj_iff.mp heq, hn, Option.some.injEq] at hl
        rw [hl]
        rfl
      . rw [hnext.unique hfrom.fixed]
        rfl

end CountsOn

/-! ## Places -/

namespace Value

/-- The values that a column of orders keeps the places from one on in, as far as it can count. -/
inductive IsPlace : Nat → Value → Prop where
  | int {n : Nat} (fits : n < Column.wordLimit) : IsPlace n (.int n)
  -- The first place that is kept as a float; the next one would be the same float.
  | top : IsPlace Column.wordLimit (.float (.finite false (Column.wordLimit * Binary64.one)))

theorem rounds_top : Rounds ((Column.wordLimit : Int) + 1) Column.wordLimit := by
  constructor
  . decide
  . decide +kernel

/-- Counting on from there comes to where it was. -/
theorem succ_top : succ (.float (.finite false (Column.wordLimit * Binary64.one))) =
    .ok (.float (.finite false (Column.wordLimit * Binary64.one))) := by
  have htotal : Column.wordLimit * Binary64.one + Binary64.one = (Column.wordLimit + 1) * Binary64.one := by
    rw [Nat.add_mul, Nat.one_mul]
  have hrounded := rounds_top.2
  have hto : ((Column.wordLimit : Int) + 1).toNat = Column.wordLimit + 1 := by omega
  rw [hto, Int.toNat_natCast] at hrounded
  have hlimit : Column.wordLimit * Binary64.one < Binary64.limit := by decide +kernel
  rw [succ_float, sub_one htotal, hrounded, if_pos hlimit]

variable {n : Nat} {v order kept : Value}

namespace IsPlace

theorem stands (h : IsPlace n v) : v.Stands n := by
  cases h with
  | int => exact stands_int.mpr rfl
  | top =>
    rw [stands_finite]
    simp only [Bool.false_eq_true, ↓reduceIte, Int.natCast_mul]

theorem le (h : IsPlace n v) : n ≤ Column.wordLimit := by
  cases h with
  | int fits => exact Nat.le_of_lt fits
  | top => exact Nat.le_refl _

theorem isDecimal (h : IsPlace n v) : v.isDecimal = false := by
  cases h <;> rfl

theorem isNumber (h : IsPlace n v) : v.isNumber :=
  h.stands.isNumber h.isDecimal

theorem whole? (h : IsPlace n v) (hn : n < Column.wordLimit) : v.whole? = some (n : Int) := by
  cases h with
  | int => rfl
  | top => exact absurd hn (Nat.lt_irrefl _)

end IsPlace

theorem isDecimal_of_number (h : Column.number order = .ok kept) : order.isDecimal = false := by
  cases order <;> first | rfl | cases h

/-- An order that stands beyond what columns keep as integers is kept only if it is a float. -/
theorem exists_float_of_number {m : Int} (hs : order.Stands m) (hm : Column.wordLimit ≤ m)
    (h : Column.number order = .ok kept) : ∃ x, order = .float x := by
  cases order with
  | float x => exact ⟨x, rfl⟩
  | int k =>
    simp only [Column.number, bind_eq_ok] at h
    obtain ⟨_, hcheck, -⟩ := h
    rw [Column.checkInt_eq_ok] at hcheck
    rw [stands_int] at hs
    omega
  | bool b =>
    rw [stands_bool] at hs
    have : (1 : Int) < Column.wordLimit := by decide
    split at hs <;> omega
  | decimal x => cases h
  | _ => simp [Stands, magnitude?] at hs

theorem isPlace_numberOf {x : Binary64} (hs : Stands (.float x) n) (hn : 0 < n) (hle : n ≤ Column.wordLimit) :
    IsPlace n (Column.numberOf x) := by
  rw [stands_float (by omega), Int.toNat_natCast] at hs
  have hone := Binary64.one_pos
  have hx : Column.numberOf x = if n < Column.wordLimit then .int n else .float x := by
    subst hs
    unfold Column.numberOf Binary64.truncate? Binary64.isWhole
    generalize Binary64.one = d at hone
    simp [Nat.mul_div_cancel n hone]
  rw [hx]
  split
  . next hfits => exact .int hfits
  . next hbeyond =>
    have : n = Column.wordLimit := by omega
    subst this
    rw [hs]
    exact .top

theorem isPlace_of_number (hs : order.Stands n) (hn : 0 < n) (hle : n ≤ Column.wordLimit)
    (h : Column.number order = .ok kept) : IsPlace n kept := by
  cases order with
  | int m =>
    simp only [Column.number, bind_eq_ok, pure, Except.pure, Except.ok.injEq] at h
    obtain ⟨_, hcheck, rfl⟩ := h
    rw [Column.checkInt_eq_ok] at hcheck
    rw [stands_int] at hs
    subst hs
    exact .int (by omega)
  | bool b =>
    rw [stands_bool] at hs
    cases h
    rw [hs]
    have : 1 < Column.wordLimit := by decide
    apply IsPlace.int
    split at hs <;> omega
  | float x =>
    cases h
    exact isPlace_numberOf hs hn hle
  | decimal x => cases h
  | _ => simp [Stands, magnitude?] at hs

end Value

/-! ## Orders that are given one after the other -/

namespace Configuration

/-- Orders of which each is given as the number behind the one before it, and the first one as one. -/
inductive Follows : List Value → Prop where
  | nil : Follows []
  | concat {orders : List Value} {next order : Value} (before : Follows orders)
      (follows : nextOrder orders = .ok next) (same : order.same next) : Follows (orders ++ [order])

namespace Follows

variable {orders : List Value} {v w : Value}

theorem first (h : Follows orders) (hv : orders[0]? = some v) : v.Stands 1 := by
  induction h with
  | nil => cases hv
  | @concat orders next order _ follows same ih =>
    cases orders with
    | nil =>
      cases hv
      cases follows
      exact Value.same_int_iff.mp same
    | cons x xs => exact ih hv

theorem next (h : Follows orders) {k : Nat} (hv : orders[k]? = some v) (hw : orders[k + 1]? = some w) :
    ∃ next, v.succ = .ok next ∧ w.same next := by
  induction h with
  | nil => cases hv
  | @concat orders next order _ follows same ih =>
    rw [List.getElem?_append] at hv hw
    split at hw
    . next hlt =>
      rw [if_pos (by omega)] at hv
      exact ih hv hw
    . next hge =>
      have hk : k + 1 = orders.length := by
        have := (List.getElem?_eq_some_iff.mp hw).1
        rw [List.length_singleton] at this
        omega
      rw [hk, Nat.sub_self, List.getElem?_cons_zero, Option.some.injEq] at hw
      rw [if_pos (by omega)] at hv
      have hlast : orders.getLast? = some v := by
        rw [List.getLast?_eq_getElem?, ← hk, Nat.add_sub_cancel]
        exact hv
      rw [nextOrder, hlast] at follows
      exact ⟨next, follows, hw ▸ same⟩

theorem stands (h : Follows orders) (hkept : ∀ v ∈ orders, ∃ kept, Column.number v = .ok kept)
    {sorted : List Value} (hsort : Value.sort orders = .ok sorted)
    (hrun : Pipeline.isContiguous sorted = .ok true) {k : Nat} (hv : orders[k]? = some v) :
    v.Stands (k + 1) := by
  obtain ⟨first, hfirst, -⟩ := Pipeline.isContiguous_eq_ok.mp hrun
  -- What the orders stand for, in the order in which they are given.
  obtain ⟨ns, hns, hrun⟩ := Pipeline.exists_run hsort hfirst
  have hat : ∀ {i : Nat} {n : Int}, ns[i]? = some n → ∃ w, orders[i]? = some w ∧ w.Stands n := by
    intro i n hn
    obtain ⟨hi, rfl⟩ := List.getElem?_eq_some_iff.mp hn
    have hi' : i < orders.length := by rwa [hns.length_eq]
    exact ⟨orders[i], List.getElem?_eq_getElem hi', hns.get hi' hi⟩
  have hcounts : CountsOn ns := by
    constructor
    . intro n hn
      obtain ⟨w, hw, hstands⟩ := hat hn
      exact hstands.unique (h.first hw)
    . intro i n m hn hm hpos
      obtain ⟨w, hw, hwn⟩ := hat hn
      obtain ⟨x, hx, hxm⟩ := hat hm
      obtain ⟨kept, hnumber⟩ := hkept w (List.mem_of_getElem? hw)
      obtain ⟨next, hnext, hsame⟩ := h.next hw hx
      have := hwn.of_succ hpos (Value.isDecimal_of_number hnumber) hnext (hxm.of_same hsame)
      exact this.imp_right (·.2)
  have hk : k < ns.length := by
    rw [← hns.length_eq]
    exact (List.getElem?_eq_some_iff.mp hv).1
  obtain ⟨w, hw, hstands⟩ := hat (List.getElem?_eq_getElem hk)
  rw [hv, Option.some.injEq] at hw
  rwa [hw, ← hcounts.eq_succ hrun (List.getElem?_eq_getElem hk)]

theorem isPlace (h : Follows orders) (hkept : ∀ v ∈ orders, ∃ kept, Column.number v = .ok kept)
    (hstands : ∀ (k : Nat) v, orders[k]? = some v → v.Stands (k + 1)) {k : Nat} (hv : orders[k]? = some v)
    {kept : Value} (hnumber : Column.number v = .ok kept) : Value.IsPlace (k + 1) kept := by
  -- By induction on the place, since it is the one before that tells whether the column can count so far.
  induction k generalizing v kept with
  | zero => exact Value.isPlace_of_number (hstands 0 v hv) (by decide) (by decide) hnumber
  | succ k ih =>
    have hk : k < orders.length := by
      have := (List.getElem?_eq_some_iff.mp hv).1
      omega
    have hbefore := List.getElem?_eq_getElem hk
    obtain ⟨kept', hnumber'⟩ := hkept _ (List.getElem_mem hk)
    have hle := (ih hbefore hnumber').le
    have hne : k + 1 ≠ Column.wordLimit := by
      intro htop
      have hs := hstands k _ hbefore
      have hs' := hstands (k + 1) v hv
      have hlimit : ((k : Int) + 1) = Column.wordLimit := by omega
      obtain ⟨x, hx⟩ := Value.exists_float_of_number hs (by omega) hnumber'
      obtain ⟨next, hnext, hsame⟩ := h.next hbefore hv
      rw [hx] at hs hnext
      have hrounds := Value.rounds_of_succ hs (by omega) hnext (hs'.of_same hsame)
      rw [hlimit] at hrounds
      have := hrounds.unique Value.rounds_top
      omega
    exact Value.isPlace_of_number (hstands (k + 1) v hv) (by omega) (by omega) hnumber

end Follows

end Configuration

/-! ## Places that are counted -/

namespace Value

/-- Orders that are the places from one on. -/
def AreCounted (orders : List Value) : Prop :=
  ∀ (k : Nat) v, orders[k]? = some v → IsPlace (k + 1) v

theorem areCounted_nil : AreCounted [] := by
  intro k v hv
  cases hv

theorem AreCounted.concat {orders : List Value} {v : Value} (h : AreCounted orders)
    (hv : IsPlace (orders.length + 1) v) : AreCounted (orders ++ [v]) := by
  intro k w hw
  rw [List.getElem?_append] at hw
  split at hw
  . exact h k w hw
  . have hk : k = orders.length := by
      have := (List.getElem?_eq_some_iff.mp hw).1
      rw [List.length_singleton] at this
      omega
    rw [hk, Nat.sub_self, List.getElem?_cons_zero, Option.some.injEq] at hw
    rwa [hk, ← hw]

section

variable {orders : List Value} {next order kept : Value}

theorem AreCounted.isPlace_next (h : AreCounted orders) (hnext : Configuration.nextOrder orders = .ok next)
    (hsame : order.same next) (hkept : Column.number order = .ok kept)
    (hseat : ∀ v ∈ orders, v.same kept = false) : IsPlace (orders.length + 1) kept := by
  unfold Configuration.nextOrder at hnext
  cases hlast : orders.getLast? with
  | none =>
    rw [hlast] at hnext
    cases hnext
    rw [List.getLast?_eq_none_iff] at hlast
    rw [hlast]
    exact isPlace_of_number (same_int_iff.mp hsame) (by decide) (by decide) hkept
  | some last =>
    rw [hlast] at hnext
    have hseat := hseat last (List.mem_of_getLast? hlast)
    have hplace : IsPlace orders.length last := by
      rw [List.getLast?_eq_getElem?] at hlast
      have := (List.getElem?_eq_some_iff.mp hlast).1
      have := h _ last hlast
      rwa [Nat.sub_add_cancel (by omega)] at this
    generalize orders.length = n at hplace
    cases hplace with
    | int fits =>
      cases hnext
      have hstands : order.Stands ((n : Int) + 1) := by
        rw [← same_int_iff]
        simpa using hsame
      exact isPlace_of_number hstands (by omega) (by omega) hkept
    -- There is no place behind the last one that the column can count to.
    | top =>
      have hnext : .ok next = succ _ := hnext.symm
      rw [succ_top, Except.ok.injEq] at hnext
      rw [hnext, IsPlace.top.stands.same_iff] at hsame
      have hplace := isPlace_of_number hsame (by decide) (Nat.le_refl _) hkept
      rw [hplace.stands.same_iff.mpr IsPlace.top.stands] at hseat
      cases hseat

theorem AreCounted.pairwise (h : AreCounted orders) :
    orders.Pairwise fun v w => ∃ m n : Nat, m < n ∧ IsPlace m v ∧ IsPlace n w := by
  rw [List.pairwise_iff_getElem]
  intro i j hi hj hij
  exact ⟨i + 1, j + 1, by omega, h i _ (List.getElem?_eq_getElem hi), h j _ (List.getElem?_eq_getElem hj)⟩

theorem AreCounted.exists_isPlace (h : AreCounted orders) {v : Value} (hv : v ∈ orders) : ∃ n, IsPlace n v := by
  obtain ⟨k, hk⟩ := List.getElem?_of_mem hv
  exact ⟨k + 1, h k v hk⟩

theorem AreCounted.sort (h : AreCounted orders) : Value.sort orders = .ok orders := by
  apply sort_of_pairwise
  . intro v hv
    obtain ⟨n, hn⟩ := h.exists_isPlace hv
    exact hn.isNumber
  . apply h.pairwise.imp
    rintro v w ⟨m, n, hlt, hv, hw⟩
    apply not_isBelow_of_isBelow
    rw [hv.stands.isBelow_iff hw.stands]
    omega

end

end Value

namespace Pipeline

theorem isRun_of_areCounted {orders : List Value} (h : AreCounted orders) : isRun 1 orders := by
  rw [isRun_iff]
  intro k w hw
  have := (h k w hw).stands
  rwa [Int.natCast_add, Int.add_comm] at this

theorem isContiguous_of_areCounted {orders : List Value} (h : AreCounted orders) : isContiguous orders = .ok true := by
  rw [isContiguous_eq_ok]
  refine ⟨1, isRun_of_areCounted h, fun v hv => ?_⟩
  rw [List.head?_eq_getElem?] at hv
  exact (h 0 v hv).whole? (by decide)

theorem check_eq_ok {stage : StageShape} : stage.check = .ok () ↔ stage.deadline.isDeadline ∧ stage.limit.isLimit := by
  unfold StageShape.check checkStageValues
  cases stage.deadline.isDeadline <;> cases stage.limit.isLimit <;> simp

/-- A step of a check that ends it unless it is passed. -/
theorem unless_eq_ok {passed : Except Fault Bool} {refusal rest : Except Fault Unit} (hrefusal : refusal ≠ .ok ()) :
    (passed >>= fun b => if !b then refusal else rest) = .ok () ↔ passed = .ok true ∧ rest = .ok () := by
  cases passed with
  | error e => simp [bind, Except.bind]
  | ok b => cases b <;> simp [bind, Except.bind, hrefusal]

theorem validateShape_eq_ok {label : Value} {stages : List StageShape} : validateShape label stages = .ok () ↔
    stages ≠ [] ∧ ∃ sorted, Value.sort (stages.map (·.order)) = .ok sorted ∧ areDistinct sorted = .ok true ∧
      isContiguous sorted = .ok true ∧ ∀ stage ∈ stages, stage.deadline.isDeadline ∧ stage.limit.isLimit := by
  have hchecks : stages.forM StageShape.check = .ok () ↔
      ∀ stage ∈ stages, stage.deadline.isDeadline ∧ stage.limit.isLimit := by
    rw [forM_eq_ok]
    simp only [check_eq_ok]
  have hrefuse (reason : String) (rest : Unit → Except Fault Unit) :
      (validateShape.refuse label reason >>= rest) ≠ .ok () := nofun
  rw [← hchecks]
  unfold validateShape
  split
  . next hempty => simp [List.isEmpty_iff.mp hempty, hrefuse]
  . next hsome =>
    rw [List.isEmpty_iff] at hsome
    rw [bind_eq_ok, and_iff_right hsome]
    dsimp only
    simp only [unless_eq_ok (hrefuse _ _)]

theorem of_validateShape {label : Value} {stages : List StageShape} (h : validateShape label stages = .ok ()) :
    ∃ sorted, Value.sort (stages.map (·.order)) = .ok sorted ∧ isContiguous sorted = .ok true := by
  obtain ⟨-, sorted, hsort, -, hrun, -⟩ := validateShape_eq_ok.mp h
  exact ⟨sorted, hsort, hrun⟩

theorem validateShape_of_areCounted {label : Value} {stages : List StageShape} (hsome : stages ≠ [])
    (horders : AreCounted (stages.map (·.order)))
    (hvalues : ∀ stage ∈ stages, stage.deadline.isDeadline ∧ stage.limit.isLimit) :
    validateShape label stages = .ok () := by
  rw [validateShape_eq_ok]
  have hdistinct := areDistinct_of_isRun (isRun_of_areCounted horders)
  exact ⟨hsome, _, horders.sort, hdistinct, isContiguous_of_areCounted horders, hvalues⟩

end Pipeline

end StageGate
