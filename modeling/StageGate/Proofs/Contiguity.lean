import Mathlib.Data.List.Forall2
import Mathlib.Data.Int.Init
import Mathlib.Logic.Relation
import Mathlib.Order.Basic
import StageGate.Advancement
import StageGate.Proofs.Counting

/-!
This module contains which pipelines pass the structural check: those whose orders are distinct numbers without
gaps, in whatever order their stages are listed. From the first stage of such a pipeline each other one is
reached by moves to the next stage.
-/

namespace StageGate

namespace Value

variable {v w x : Value} {m n : Int} {vs : List Value} {ns : List Int}

/-! ## Sorting what stands for integers -/

theorem Stands.lt (hv : v.Stands m) (hw : w.Stands n) : v.lt w = .ok (v.isBelow w) :=
  lt_of_magnitude? hv hw nofun nofun

theorem map_magnitude? (h : List.Forall₂ Stands vs ns) : vs.map magnitude? = ns.map fun n => some (.ofInt n) := by
  rw [← List.forall₂_eq_eq_eq, List.forall₂_map_left_iff, List.forall₂_map_right_iff]
  exact h

theorem ofInt_injective : Function.Injective fun n => some (Magnitude.ofInt n) := by
  intro m n h
  simpa [Magnitude.ofInt] using h

theorem exists_stands (h : List.Forall₂ Stands vs ns) (hv : v ∈ vs) : ∃ n, v.Stands n := by
  have hmem := List.mem_map_of_mem (f := magnitude?) hv
  rw [map_magnitude? h, List.mem_map] at hmem
  obtain ⟨n, -, hn⟩ := hmem
  exact ⟨n, hn.symm⟩

/-- Of values that stand for integers, some stand for each of these, and for no other one. -/
theorem mem_iff_of_stands (h : List.Forall₂ Stands vs ns) : n ∈ ns ↔ ∃ v ∈ vs, v.Stands n := by
  rw [← List.mem_map_of_injective ofInt_injective, ← map_magnitude? h, List.mem_map]
  rfl

theorem forall₂_insert (hv : v.Stands n) (h : List.Forall₂ Stands vs ns) :
    List.Forall₂ Stands (Listing.insert isBelow v vs) (Listing.insert (fun m n => decide (m < n)) n ns) := by
  induction h with
  | nil => exact .cons hv .nil
  | @cons w m ws ms hw hws ih =>
    have hbelow : v.isBelow w = decide (n < m) := by rw [Bool.eq_iff_iff, hv.isBelow_iff hw, decide_eq_true_eq]
    rw [Listing.insert, Listing.insert, hbelow]
    split
    . exact .cons hv (.cons hw hws)
    . exact .cons hw ih

theorem forall₂_inOrder (h : List.Forall₂ Stands vs ns) :
    List.Forall₂ Stands (Listing.inOrder isBelow vs) (Listing.inOrder (fun m n => decide (m < n)) ns) := by
  induction h with
  | nil => exact .nil
  | cons hv _ ih => exact forall₂_insert hv ih

/-- What stands for integers can be sorted, and then stands for the same integers in their order. -/
theorem exists_sort_of_stands (h : List.Forall₂ Stands vs ns) :
    ∃ sorted ms, sort vs = .ok sorted ∧ List.Forall₂ Stands sorted ms ∧ ms.Perm ns ∧ ms.Pairwise (· ≤ ·) := by
  have hvs : ∀ v ∈ vs, ∃ n, v.Stands n := fun v hv => exists_stands h hv
  have hlt : ∀ v w : Value, (∃ m, v.Stands m) → (∃ n, w.Stands n) → v.lt w = .ok (v.isBelow w) := by
    rintro v w ⟨m, hv⟩ ⟨n, hw⟩
    exact hv.lt hw
  refine ⟨_, _, sort_eq hlt hvs, forall₂_inOrder (List.forall₂_reverse_iff.mpr h), ?_, ?_⟩
  . exact (Listing.inOrder_perm _).trans ns.reverse_perm
  . apply Listing.pairwise_inOrder
    . exact fun _ _ _ => Int.le_trans
    . apply List.pairwise_of_forall
      intro m n
      split
      . next hlt => exact Int.le_of_lt (of_decide_eq_true hlt)
      . next hge => exact Int.not_lt.mp fun hlt => hge (decide_eq_true hlt)

/-! ## Consecutive orders -/

/-- Orders that stand for distinct integers without gaps. They are counted from the lowest one, so that one has to
be an integer itself. -/
def AreConsecutive (orders : List Value) : Prop :=
  ∃ ns low high, List.Forall₂ Stands orders ns ∧ ns.Nodup ∧ (∀ n, n ∈ ns ↔ low ≤ n ∧ n ≤ high) ∧
    ∃ v ∈ orders, v.whole? = some low

theorem AreConsecutive.perm {orders orders' : List Value} (h : AreConsecutive orders) (hperm : orders.Perm orders') :
    AreConsecutive orders' := by
  obtain ⟨ns, low, high, hstands, hnodup, hmem, v, hv, hwhole⟩ := h
  obtain ⟨ns', hstands', hns⟩ := List.perm_comp_forall₂ hperm.symm hstands
  refine ⟨ns', low, high, hstands', hns.nodup_iff.mpr hnodup, fun n => ?_, v, hperm.mem_iff.mp hv, hwhole⟩
  rw [hns.mem_iff, hmem]

/-- Integers are consecutive if they are distinct and those from the lowest one to the highest one. -/
theorem areConsecutive_int :
    AreConsecutive (ns.map .int) ↔ ns ≠ [] ∧ ns.Nodup ∧ ∃ low high, ∀ n, n ∈ ns ↔ low ≤ n ∧ n ≤ high := by
  constructor
  . rintro ⟨ms, low, high, hstands, hnodup, hmem, v, hv, -⟩
    have hms : ns = ms := by
      rw [List.forall₂_map_left_iff] at hstands
      simpa only [stands_int, List.forall₂_eq_eq_eq] using hstands
    subst hms
    refine ⟨?_, hnodup, low, high, hmem⟩
    rintro rfl
    cases hv
  . rintro ⟨hsome, hnodup, low, high, hmem⟩
    have hstands : List.Forall₂ Stands (ns.map .int) ns := by
      rw [List.forall₂_map_left_iff]
      simp only [stands_int, List.forall₂_eq_eq_eq]
    obtain ⟨n, hn⟩ := List.exists_mem_of_ne_nil ns hsome
    have hlow : low ∈ ns := by
      rw [hmem] at hn ⊢
      omega
    exact ⟨ns, low, high, hstands, hnodup, hmem, .int low, List.mem_map_of_mem hlow, rfl⟩

end Value

namespace Pipeline

open Value

theorem isContiguous_of_isRun {first : Int} {vs : List Value} {v : Value} (hrun : isRun first vs) (hv : v ∈ vs)
    (hwhole : v.whole? = some first) : isContiguous vs = .ok true := by
  rw [isContiguous_eq_ok]
  refine ⟨first, hrun, fun w hw => ?_⟩
  rw [isRun_iff] at hrun
  obtain ⟨i, hi⟩ := List.getElem?_of_mem hv
  have heq := (hrun i v hi).unique (stands_of_whole? hwhole)
  have hzero : i = 0 := by omega
  rw [hzero, ← List.head?_eq_getElem?, Option.mem_def.mp hw, Option.some.injEq] at hi
  rwa [hi]

theorem areConsecutive_iff {orders : List Value} : AreConsecutive orders ↔
    orders ≠ [] ∧ ∃ sorted, Value.sort orders = .ok sorted ∧ isContiguous sorted = .ok true := by
  constructor
  . rintro ⟨ns, low, high, hstands, hnodup, hmem, v, hv, hwhole⟩
    obtain ⟨sorted, ms, hsort, hsorted, hperm, hle⟩ := exists_sort_of_stands hstands
    have hrun : ns.Perm (countFrom low (high + 1 - low).toNat) := by
      rw [List.perm_ext_iff_of_nodup hnodup nodup_countFrom]
      intro n
      rw [hmem, mem_countFrom]
      omega
    -- What is sorted and consists of the numbers of the run is the run.
    have hms : ms = countFrom low (high + 1 - low).toNat :=
      (hperm.trans hrun).eq_of_pairwise (fun _ _ _ _ => Int.le_antisymm) hle (pairwise_countFrom.imp Int.le_of_lt)
    have hlength : sorted.length = (high + 1 - low).toNat := by
      rw [hsorted.length_eq, hms, length_countFrom]
    rw [hms, ← hlength, ← isRun_iff_forall₂] at hsorted
    refine ⟨List.ne_nil_of_mem hv, sorted, hsort, ?_⟩
    exact isContiguous_of_isRun hsorted ((sort_perm hsort).mem_iff.mpr hv) hwhole
  . rintro ⟨hsome, sorted, hsort, hcontiguous⟩
    obtain ⟨first, hrun, hfirst⟩ := isContiguous_eq_ok.mp hcontiguous
    obtain ⟨ns, hstands, hns⟩ := exists_run hsort hrun
    have hperm := sort_perm hsort
    have hsorted : sorted ≠ [] := by
      rintro rfl
      exact hsome hperm.nil_eq.symm
    obtain ⟨v, hv⟩ := Option.ne_none_iff_exists'.mp (List.head?_eq_none_iff.not.mpr hsorted)
    refine ⟨ns, first, first + ns.length - 1, hstands, hns.nodup_iff.mpr nodup_countFrom, fun n => ?_, v, ?_,
      hfirst v hv⟩
    . rw [hns.mem_iff, mem_countFrom]
      omega
    . exact hperm.mem_iff.mp (List.mem_of_head? hv)

/-! ## Well-formed pipelines -/

/-- Deadlines and limits are integers, as which their columns keep them; another value there is never well-formed. -/
structure IsWellFormed (stages : List StageShape) : Prop where
  some : stages ≠ []
  orders : AreConsecutive (stages.map (·.order))
  deadlines : ∀ stage ∈ stages, ∃ days : Int, stage.deadline = .int days ∧ 0 ≤ days
  limits : ∀ stage ∈ stages, stage.limit = .null ∨ ∃ limit : Int, stage.limit = .int limit ∧ 1 ≤ limit

theorem isDeadline_iff {deadline : Value} : deadline.isDeadline ↔ ∃ days : Int, deadline = .int days ∧ 0 ≤ days := by
  cases deadline <;> simp [Value.isDeadline]

theorem isLimit_iff {limit : Value} :
    limit.isLimit ↔ limit = .null ∨ ∃ n : Int, limit = .int n ∧ 1 ≤ n := by
  cases limit <;> simp [Value.isLimit]

variable {label : Value} {stages : List StageShape}

theorem validateShape_iff : validateShape label stages = .ok () ↔ IsWellFormed stages := by
  rw [validateShape_eq_ok]
  constructor
  . rintro ⟨hsome, sorted, hsort, -, hcontiguous, hvalues⟩
    constructor
    case some => exact hsome
    case orders => exact areConsecutive_iff.mpr ⟨by simpa using hsome, sorted, hsort, hcontiguous⟩
    case deadlines => exact fun stage hstage => isDeadline_iff.mp (hvalues stage hstage).1
    case limits => exact fun stage hstage => isLimit_iff.mp (hvalues stage hstage).2
  . intro h
    obtain ⟨-, sorted, hsort, hcontiguous⟩ := areConsecutive_iff.mp h.orders
    obtain ⟨first, hrun, -⟩ := isContiguous_eq_ok.mp hcontiguous
    refine ⟨h.some, sorted, hsort, areDistinct_of_isRun hrun, hcontiguous, fun stage hstage => ?_⟩
    exact ⟨isDeadline_iff.mpr (h.deadlines stage hstage), isLimit_iff.mpr (h.limits stage hstage)⟩

theorem IsWellFormed.perm {stages' : List StageShape} (h : IsWellFormed stages) (hperm : stages.Perm stages') :
    IsWellFormed stages' where
  some := by
    rintro rfl
    exact h.some hperm.eq_nil
  orders := h.orders.perm (hperm.map _)
  deadlines := fun stage hstage => h.deadlines stage (hperm.mem_iff.mpr hstage)
  limits := fun stage hstage => h.limits stage (hperm.mem_iff.mpr hstage)

end Pipeline

/-! ## From the first stage to each other one -/

namespace Value

variable {v w x : Value} {m n : Int}

def IsAtMost (v w : Value) : Prop :=
  ∃ m n, v.Stands m ∧ w.Stands n ∧ m ≤ n

/-- The other order is the number behind the one. -/
def IsNext (v w : Value) : Prop :=
  ∃ n, v.Stands n ∧ w.Stands (n + 1)

theorem IsAtMost.trans (hvw : v.IsAtMost w) (hwx : w.IsAtMost x) : v.IsAtMost x := by
  obtain ⟨m, n, hv, hw, hle⟩ := hvw
  obtain ⟨n', k, hw', hx, hle'⟩ := hwx
  rw [← hw.unique hw'] at hle'
  exact ⟨m, k, hv, hx, Int.le_trans hle hle'⟩

end Value

open Value

/-- The one with the lowest order of all, from which each is reached in steps from one order to the next. -/
structure IsStart {α : Type} (order : α → Value) (as : List α) (first : α) : Prop where
  mem : first ∈ as
  least : ∀ a ∈ as, (order first).IsAtMost (order a)
  leads : ∀ a ∈ as, Relation.ReflTransGen (fun a b => b ∈ as ∧ (order a).IsNext (order b)) first a

namespace Value.AreConsecutive

variable {α : Type} {order : α → Value} {as : List α} {first a b : α}

theorem exists_stands_of_mem (h : AreConsecutive (as.map order)) (ha : a ∈ as) : ∃ n, (order a).Stands n := by
  obtain ⟨ns, _, _, hstands, -⟩ := h
  exact exists_stands hstands (List.mem_map_of_mem ha)

theorem eq_of_stands (h : AreConsecutive (as.map order)) (ha : a ∈ as) (hb : b ∈ as) {n : Int}
    (han : (order a).Stands n) (hbn : (order b).Stands n) : a = b := by
  obtain ⟨ns, _, _, hstands, hnodup, -⟩ := h
  have hmap := map_magnitude? hstands
  rw [List.map_map] at hmap
  have hdistinct := hmap ▸ hnodup.map ofInt_injective
  exact List.inj_on_of_nodup_map hdistinct ha hb (han.trans hbn.symm)

theorem isStart (h : AreConsecutive (as.map order)) (hfirst : first ∈ as)
    (hleast : ∀ a ∈ as, (order first).IsAtMost (order a)) : IsStart order as first where
  mem := hfirst
  least := hleast
  leads := by
    obtain ⟨ns, low, high, hstands, -, hmem, -⟩ := id h
    have hin : ∀ {n : Int}, n ∈ ns ↔ ∃ a ∈ as, (order a).Stands n := by
      intro n
      rw [mem_iff_of_stands hstands]
      simp
    obtain ⟨m, hm⟩ := h.exists_stands_of_mem hfirst
    -- By induction on the order, since what comes before it is somewhere in the list.
    have hleads : ∀ n, m ≤ n → ∀ a ∈ as, (order a).Stands n →
        Relation.ReflTransGen (fun a b => b ∈ as ∧ (order a).IsNext (order b)) first a := by
      intro n hn
      induction n, hn using Int.leInduction with
      | base =>
        intro a ha ham
        rw [h.eq_of_stands ha hfirst ham hm]
      | succ n hn ih =>
        intro a ha han
        have hlow := (hmem m).mp (hin.mpr ⟨first, hfirst, hm⟩)
        have hhigh := (hmem (n + 1)).mp (hin.mpr ⟨a, ha, han⟩)
        obtain ⟨b, hb, hbn⟩ := hin.mp ((hmem n).mpr ⟨by omega, by omega⟩)
        exact (ih b hb hbn).tail ⟨ha, n, hbn, han⟩
    intro a ha
    obtain ⟨m', n, hm', han, hle⟩ := hleast a ha
    rw [hm'.unique hm] at hle
    exact hleads n hle a ha han

theorem exists_isStart (h : AreConsecutive (as.map order)) : ∃ first, IsStart order as first := by
  obtain ⟨ns, low, high, hstands, -, hmem, v, hv, hwhole⟩ := id h
  obtain ⟨first, hfirst, rfl⟩ := List.mem_map.mp hv
  refine ⟨first, h.isStart hfirst fun a ha => ?_⟩
  obtain ⟨n, hn⟩ := h.exists_stands_of_mem ha
  have hlow := (hmem n).mp ((mem_iff_of_stands hstands).mpr ⟨_, List.mem_map_of_mem ha, hn⟩)
  exact ⟨low, n, stands_of_whole? hwhole, hn, hlow.1⟩

end Value.AreConsecutive

theorem Store.exists_isStart {s : Store} {p : Pipeline} (h : s.validate p = .ok ()) :
    ∃ first, (s.stagesOf p.id).head? = some first ∧ IsStart Stage.order (s.stagesOf p.id) first := by
  have hvalid := Pipeline.validateShape_iff.mp h
  have horders : AreConsecutive ((s.stagesOf p.id).map Stage.order) := by
    have := hvalid.orders
    rwa [List.map_map] at this
  have hpairwise : (s.stagesOf p.id).Pairwise fun a b => a.order.IsAtMost b.order := by
    apply Listing.pairwise_inOrder
    . exact fun _ _ _ => IsAtMost.trans
    . apply List.pairwise_of_forall_mem_list
      intro a ha b hb
      obtain ⟨m, hm⟩ := horders.exists_stands_of_mem (Listing.mem_inOrder.mpr ha)
      obtain ⟨n, hn⟩ := horders.exists_stands_of_mem (Listing.mem_inOrder.mpr hb)
      split
      . next hbefore => exact ⟨m, n, hm, hn, (hm.atMost_iff hn).mp hbefore⟩
      . next hbehind =>
        rw [hm.atMost_iff hn] at hbehind
        exact ⟨n, m, hn, hm, by omega⟩
  have hsome : s.stagesOf p.id ≠ [] := by simpa using hvalid.some
  obtain ⟨first, rest, hstages⟩ := List.exists_cons_of_ne_nil hsome
  rw [hstages] at horders hpairwise ⊢
  refine ⟨first, rfl, horders.isStart List.mem_cons_self ?_⟩
  rw [List.forall_mem_cons]
  obtain ⟨n, hn⟩ := horders.exists_stands_of_mem List.mem_cons_self
  exact ⟨⟨n, n, hn, hn, Int.le_refl n⟩, (List.pairwise_cons.mp hpairwise).1⟩

/-- A move to the next stage is no jump and no regression. -/
theorem Advancement.moveRefusal?_of_isNext {p : Pipeline} {current target : Stage}
    (hwhole : current.order.whole?.isSome) (hnext : current.order.IsNext target.order) (hid : target.id ≠ current.id) :
    moveRefusal? p current target = .ok none := by
  obtain ⟨n, hcurrent, htarget⟩ := hnext
  obtain ⟨m, hm⟩ := Option.isSome_iff_exists.mp hwhole
  rw [(stands_of_whole? hm).unique hcurrent] at hm
  have hbelow : current.order.isBelow target.order := (hcurrent.isBelow_iff htarget).mpr (by omega)
  unfold moveRefusal?
  rw [if_neg hid, hcurrent.lt htarget, hbelow, succ_of_whole? hm]
  simp [same_int_iff.mpr htarget, bind, Except.bind, pure, Except.pure]

namespace Pipeline

/-- The structural check passes exactly the well-formed pipelines, however their stages are listed, and in a pipeline
that has passed it the moves to the next stage lead from the first stage to each other one. -/
theorem passes_exactly_wellFormed :
    (∀ label stages, validateShape label stages = .ok () ↔ IsWellFormed stages) ∧
    (∀ label stages stages', stages.Perm stages' →
      (validateShape label stages = .ok () ↔ validateShape label stages' = .ok ())) ∧
    (∀ label stages, validateShape label stages = .ok () → ∃ first, IsStart StageShape.order stages first) ∧
    (∀ (s : Store) p, s.validate p = .ok () →
      ∃ first, (s.stagesOf p.id).head? = some first ∧ IsStart Stage.order (s.stagesOf p.id) first) ∧
    ∀ p current target, current.order.whole?.isSome → current.order.IsNext target.order → target.id ≠ current.id →
      Advancement.moveRefusal? p current target = .ok none := by
  refine ⟨fun _ _ => validateShape_iff, ?_, ?_, fun _ _ => Store.exists_isStart, ?_⟩
  . intro label stages stages' hperm
    rw [validateShape_iff, validateShape_iff]
    exact ⟨fun h => h.perm hperm, fun h => h.perm hperm.symm⟩
  . intro label stages h
    exact (validateShape_iff.mp h).orders.exists_isStart
  . intro p current target hwhole hnext hid
    exact Advancement.moveRefusal?_of_isNext hwhole hnext hid

theorem passes_exactly_wellFormed_shuffled :
    let stages : List StageShape :=
      [⟨.int 1, .int 12, .int 0, .null⟩, ⟨.int 2, .int 10, .int 3, .int 2⟩, ⟨.int 3, .int 11, .int 0, .null⟩]
    validateShape (.int 1) stages = .ok () ∧ ∃ first, IsStart StageShape.order stages first := by
  intro stages
  have horders : AreConsecutive ([12, 10, 11].map .int) := by
    rw [areConsecutive_int]
    refine ⟨by decide, by decide, 10, 12, fun n => ?_⟩
    simp only [List.mem_cons, List.not_mem_nil, or_false]
    omega
  have hwellFormed : IsWellFormed stages := ⟨by simp [stages], horders, by simp [stages], by simp [stages]⟩
  have hvalid := (passes_exactly_wellFormed.1 (.int 1) stages).mpr hwellFormed
  exact ⟨hvalid, passes_exactly_wellFormed.2.2.1 (.int 1) stages hvalid⟩

end Pipeline

end StageGate
