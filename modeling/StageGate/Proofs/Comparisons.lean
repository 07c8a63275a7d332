import StageGate.Proofs.Integers

/-!
This module contains how the comparisons of rules go together. Equality and the orderings read values in different
ways, but where both values can be read as numbers they all agree with the order of these numbers. Elsewhere the
orderings are false, and so is everything that is asked of a field that is not there, apart from whether it is missing.
-/

namespace StageGate

/-! ## The order of finite numbers -/

/-- Of two finite numbers either one is less than the other, or they are equal, and never two of these. -/
theorem Binary64.count_relations {x y : Binary64} (hx : x.isFinite) (hy : y.isFinite) :
    [x.lt y, x.eq y, y.lt x].count true = 1 := by
  rw [lt_of_isFinite hx hy, eq_of_isFinite hx hy, lt_of_isFinite hy hx]
  rcases Int.lt_trichotomy x.units y.units with h | h | h
  . simp [h, Int.ne_of_lt h, Int.not_lt.mpr (Int.le_of_lt h)]
  . simp [h]
  . simp [h, Int.ne_of_gt h, Int.not_lt.mpr (Int.le_of_lt h)]

/-! ## Words -/

namespace Text

variable {c : Char}

theorem isAlpha_iff : c.isAlpha ↔ c.isUpper ∨ c.isLower := by
  change (c.isUpper || c.isLower) = true ↔ _
  rw [Bool.or_eq_true]

theorem isAlpha_of_toLower (h : c.toLower.isAlpha) : c.isAlpha := by
  unfold Char.toLower at h
  split at h
  . next hupper => exact isAlpha_iff.mpr (.inl (decide_eq_true hupper))
  . exact h

theorem toNat_of_isAlpha (h : c.isAlpha) : 65 ≤ c.toNat ∧ c.toNat ≤ 122 := by
  rcases isAlpha_iff.mp h with hupper | hlower
  . have hrange : 65 ≤ c.toNat ∧ c.toNat ≤ 90 := of_decide_eq_true hupper
    omega
  . have hrange := (Bool.and_eq_true _ _).mp hlower
    have hlow : 97 ≤ c.toNat := of_decide_eq_true hrange.1
    have hhigh : c.toNat ≤ 122 := of_decide_eq_true hrange.2
    omega

theorem digitValue?_of_isAlpha (h : c.isAlpha) : digitValue? c = none := by
  obtain ⟨hlow, hhigh⟩ := toNat_of_isAlpha h
  have hzeros : ∀ z ∈ zeros, z + 10 ≤ 65 ∨ 122 < z := by decide
  unfold digitValue?
  rw [Option.map_eq_none_iff, Array.find?_eq_none]
  intro z hz
  have := hzeros z hz
  simp only [Bool.and_eq_true, decide_eq_true_eq, not_and, Nat.not_lt]
  omega

end Text

namespace Numeral

variable {c : Char} {cs : List Char}

theorem plainDigit_of_isAlpha (h : c.isAlpha) : plainDigit c = c := by
  unfold plainDigit
  rw [Text.digitValue?_of_isAlpha h]

theorem isDigit_of_isAlpha (h : c.isAlpha) : isDigit c = false := by
  obtain ⟨hlow, -⟩ := Text.toNat_of_isAlpha h
  have hhigh : ¬c ≤ '9' := by
    intro hle
    change c.toNat ≤ 57 at hle
    omega
  simp [isDigit, hhigh]

theorem takeSign_of_isAlpha (h : c.isAlpha) : takeSign (c :: cs) = (false, c :: cs) := by
  unfold takeSign
  split
  . next heq =>
    cases heq
    cases h
  . next heq =>
    cases heq
    cases h
  . rfl

theorem exists_of_ungroup? {digits : List Char} (h : c.isAlpha) (hd : ungroup? (c :: cs) = some digits) :
    ∃ rest, digits = c :: rest := by
  have hc : c ≠ '_' := by
    rintro rfl
    cases h
  simp only [ungroup?, ungroup?.go, hc, ↓reduceIte, Char.reduceEq, decide_false, Bool.false_and, Bool.false_eq_true,
    Option.map_eq_some_iff] at hd
  obtain ⟨rest, -, rfl⟩ := hd
  exact ⟨rest, rfl⟩

theorem unsigned?_of_isAlpha (h : c.isAlpha) (negative : Bool) : unsigned? negative (c :: cs) = none := by
  have hpoint : c ≠ '.' := by
    rintro rfl
    cases h
  unfold unsigned?
  rw [List.takeWhile_cons_of_neg (by simp [isDigit_of_isAlpha h]),
    List.dropWhile_cons_of_neg (by simp [isDigit_of_isAlpha h])]
  split
  . next fraction rest heq =>
    split at heq
    . next hcs =>
      cases hcs
      exact absurd rfl hpoint
    . cases heq
      rfl

end Numeral

/-- A word that is neither an infinity nor what is no number is no number either. -/
theorem Binary64.ofText?_of_isAlpha {s : String} {c : Char} {cs : List Char} (hs : (Text.trim s).toList = c :: cs)
    (hc : c.isAlpha) (hi : c.toLower ≠ 'i') (hn : c.toLower ≠ 'n') : ofText? s = none := by
  have hword (w : Char) (ws : List Char) (hne : c.toLower ≠ w) (cs : List Char) :
      String.ofList ((c :: cs).map Char.toLower) ≠ String.ofList (w :: ws) := by
    rw [Ne, String.ofList_inj, List.map_cons, List.cons.injEq]
    exact fun h => hne h.1
  unfold ofText?
  rw [hs, List.map_cons, Numeral.plainDigit_of_isAlpha hc, Numeral.takeSign_of_isAlpha hc]
  dsimp only
  rw [if_neg, if_neg]
  . cases hd : Numeral.ungroup? (c :: cs.map Numeral.plainDigit) with
    | none => rfl
    | some digits =>
      obtain ⟨rest, rfl⟩ := Numeral.exists_of_ungroup? hc hd
      simp [Numeral.unsigned?_of_isAlpha hc]
  . exact hword 'n' ['a', 'n'] hn _
  . simp only [Bool.or_eq_true, decide_eq_true_eq, not_or]
    exact ⟨hword 'i' ['n', 'f'] hi _, hword 'i' ['n', 'f', 'i', 'n', 'i', 't', 'y'] hi _⟩

/-! ## Equality of what can be read as numbers -/

namespace Value

theorem exists_first_of_toBool? {s : String} {b : Bool} (h : toBool? (.text s) = some b) :
    ∃ c cs, (Text.trim s).toList = c :: cs ∧ (c.toLower = 't' ∨ c.toLower = 'f') := by
  have hword : (Text.trim s).toList.map Char.toLower = ['t', 'r', 'u', 'e'] ∨
      (Text.trim s).toList.map Char.toLower = ['f', 'a', 'l', 's', 'e'] := by
    rw [← String.toList_map]
    unfold toBool? at h
    dsimp only at h
    split at h
    . next heq => exact .inl (congrArg String.toList heq)
    . split at h
      . next heq => exact .inr (congrArg String.toList heq)
      . cases h
  rcases hword with hword | hword
  . obtain ⟨c, cs, hs, hc, -⟩ := List.map_eq_cons_iff.mp hword
    exact ⟨c, cs, hs, .inl hc⟩
  . obtain ⟨c, cs, hs, hc, -⟩ := List.map_eq_cons_iff.mp hword
    exact ⟨c, cs, hs, .inr hc⟩

/-- A text that can be read as a truth value is a word, and cannot be read as a number. -/
theorem toNumber_of_toBool? {s : String} {b : Bool} (h : toBool? (.text s) = some b) :
    toNumber (.text s) = .ok none := by
  obtain ⟨c, cs, hs, hc⟩ := exists_first_of_toBool? h
  have halpha : c.isAlpha := by
    apply Text.isAlpha_of_toLower
    rcases hc with hc | hc <;> rw [hc] <;> rfl
  have hnone : Binary64.ofText? s = none :=
    Binary64.ofText?_of_isAlpha hs halpha (by rcases hc with hc | hc <;> simp [hc])
      (by rcases hc with hc | hc <;> simp [hc])
  rw [toNumber, hnone]
  rfl

variable {v w : Value} {x y : Binary64}

theorem eq_bool_of_toBool? {b : Bool} (hv : v.toNumber = .ok (some x)) (h : v.toBool? = some b) : v = .bool b := by
  cases v with
  | bool a =>
    cases h
    rfl
  | text s =>
    rw [toNumber_of_toBool? h] at hv
    cases hv
  | _ => cases h

theorem isFinite_of_finite? (h : finite? x = some y) : y.isFinite := by
  unfold finite? at h
  split at h
  . next hx =>
    cases h
    exact hx
  . cases h

theorem toNumber_bool (b : Bool) : toNumber (.bool b) = .ok (some (.ofInt b.toInt)) := by
  cases b <;> rfl

theorem natAbs_lt_of_bool (b : Bool) : b.toInt.natAbs < Binary64.beyond := by
  cases b <;> decide +kernel

theorem isFinite_of_toNumber (h : v.toNumber = .ok (some x)) : x.isFinite := by
  cases v with
  | null | list | object => cases h
  | bool b =>
    rw [toNumber_bool, Except.ok.injEq, Option.some.injEq] at h
    rw [← h, Binary64.isFinite_ofInt]
    exact natAbs_lt_of_bool b
  | int n =>
    rw [toNumber] at h
    cases hx : finite? (Binary64.ofInt n) with
    | none =>
      rw [hx] at h
      cases h
    | some y =>
      rw [hx] at h
      cases h
      exact isFinite_of_finite? hx
  | float y => exact isFinite_of_finite? (Except.ok.inj h)
  | decimal d =>
    rw [toNumber] at h
    obtain ⟨found, -, hfound⟩ := map_eq_ok.mp h
    obtain ⟨y, -, hy⟩ := Option.bind_eq_some_iff.mp hfound
    exact isFinite_of_finite? hy
  | text s =>
    rw [toNumber, Except.ok.injEq] at h
    obtain ⟨y, -, hy⟩ := Option.bind_eq_some_iff.mp h
    exact isFinite_of_finite? hy

theorem eq_ofInt_bool (p q : Bool) : (Binary64.ofInt p.toInt).eq (.ofInt q.toInt) = (p == q) := by
  have hsmall (b : Bool) : b.toInt.natAbs ≤ 2 ^ 53 := by
    cases b <;> decide
  rw [Binary64.eq_ofInt (natAbs_lt_of_bool p) (natAbs_lt_of_bool q), Binary64.roundedInt_of_le (hsmall p),
    Binary64.roundedInt_of_le (hsmall q)]
  cases p <;> cases q <;> rfl

theorem equalBools?_of_toNumber {b : Bool} (hv : v.toNumber = .ok (some x)) (hw : w.toNumber = .ok (some y))
    (h : equalBools? v w = some b) : b = x.eq y := by
  obtain ⟨hvb, hwb⟩ := toBool?_of_equalBools? h
  obtain ⟨p, hp⟩ := Option.isSome_iff_exists.mp hvb
  obtain ⟨q, hq⟩ := Option.isSome_iff_exists.mp hwb
  obtain rfl := eq_bool_of_toBool? hv hp
  obtain rfl := eq_bool_of_toBool? hw hq
  rw [toNumber_bool, Except.ok.injEq, Option.some.injEq] at hv hw
  rw [← hv, ← hw, eq_ofInt_bool]
  exact (Option.some.inj h).symm

/-- Truth values that can be read as numbers are equal just where the numbers are. -/
theorem looseEquals_of_toNumber (hv : v.toNumber = .ok (some x)) (hw : w.toNumber = .ok (some y)) :
    v.looseEquals w = .ok (x.eq y) := by
  have hnull : v.isNull = false ∧ w.isNull = false := by
    constructor
    . cases v <;> first | rfl | cases hv
    . cases w <;> first | rfl | cases hw
  unfold looseEquals
  rw [hnull.1, hnull.2]
  cases h : equalBools? v w with
  | some b => rw [equalBools?_of_toNumber hv hw h]; rfl
  | none =>
    unfold equalNumbersOrTexts
    rw [hv, hw]
    rfl

end Value

/-! ## Leaves that compare -/

namespace Leaf

/-- What the comparisons of two values answer; `x?` and `y?` are the numbers that they can be read as, if they can. -/
structure AreCoherent (answer : Operator → Except Fault Bool) (x? y? : Option Binary64) : Prop where
  numbers : ∀ x y, x? = some x → y? = some y →
    answer .less = .ok (x.lt y) ∧ answer .equal = .ok (x.eq y) ∧ answer .greater = .ok (y.lt x) ∧
      [x.lt y, x.eq y, y.lt x].count true = 1 ∧
      answer .atMost = .ok (x.lt y || x.eq y) ∧ answer .atLeast = .ok (y.lt x || x.eq y)
  others : x? = none ∨ y? = none →
    answer .less = .ok false ∧ answer .greater = .ok false ∧ answer .atMost = .ok false ∧ answer .atLeast = .ok false
  unequal : answer .unequal = (answer .equal).map (!·)
  absent : ∃ b, answer .present = .ok b ∧ answer .absent = .ok (!b)

variable {domain : Domain} {field : String} {a value : Value} {x? y? : Option Binary64}

theorem holdsOrdered_of_none (ha : a.toNumber = .ok x?) (hv : value.toNumber = .ok y?) (h : x? = none ∨ y? = none)
    (op : Operator) : holdsOrdered op a value = .ok false := by
  rw [holdsOrdered, ha, hv]
  rcases h with rfl | rfl
  . rfl
  . cases x? <;> rfl

theorem areCoherent_holdsOn (ha : a.toNumber = .ok x?) (hv : value.toNumber = .ok y?) :
    AreCoherent (fun op => holdsOn ⟨domain, field, op, value⟩ (some a)) x? y? := by
  refine ⟨?_, ?_, rfl, _, rfl, rfl⟩
  . rintro x y rfl rfl
    have hordered := holdsOrdered_of_toNumber ha hv
    have hone := Binary64.count_relations (Value.isFinite_of_toNumber ha) (Value.isFinite_of_toNumber hv)
    refine ⟨hordered .less, Value.looseEquals_of_toNumber ha hv, hordered .greater, hone, hordered .atMost, ?_⟩
    rw [Binary64.eq_comm x y]
    exact hordered .atLeast
  . intro hnone
    have hordered := holdsOrdered_of_none ha hv hnone
    exact ⟨hordered .less, hordered .greater, hordered .atMost, hordered .atLeast⟩

/-- A fact that is not there makes every comparison false, but for the one that asks whether it is not there. -/
theorem holdsOn_none (op : Operator) : holdsOn ⟨domain, field, op, value⟩ none = .ok (op = .absent) := by
  cases op <;> rfl

end Leaf

namespace Rule

/--
The comparisons of a field with a value go together, whatever kinds of values are compared. They answer all but for a
text that is too long to be written, and on a field that is not there they are all false.
-/
theorem comparisons_coherent {facts : Facts} {domain : Domain} {field : String} {a value : Value}
    {x? y? : Option Binary64} (hfield : (Leaf.source facts domain).resolve? field = .ok (some a))
    (ha : a.toNumber = .ok x?) (hv : value.toNumber = .ok y?) :
    Leaf.AreCoherent (fun op => (leaf ⟨domain, field, op, value⟩).holds facts) x? y? ∧
      (a.isJson → isScalar value → a.isWritable → Answers ((leaf ⟨domain, field, .equal, value⟩).holds facts)) ∧
      ∀ facts', (Leaf.source facts' domain).resolve? field = .ok none →
        ∀ op, (leaf ⟨domain, field, op, value⟩).holds facts' = .ok (op = .absent) := by
  refine ⟨?_, ?_, ?_⟩
  . have hholds : (fun op => (leaf ⟨domain, field, op, value⟩).holds facts) =
        fun op => Leaf.holdsOn ⟨domain, field, op, value⟩ (some a) :=
      funext fun op => Leaf.holds_of_resolve? hfield op value
    rw [hholds]
    exact Leaf.areCoherent_holdsOn ha hv
  . intro hjson hscalar hwritable
    have hjson' := Value.isJson_of_isScalar hscalar
    have hmodest : ¬a.IsImmense := (Value.answers_toNumber hjson).mp ⟨_, ha⟩
    have hmodest' : ¬value.IsImmense := (Value.answers_toNumber hjson').mp ⟨_, hv⟩
    rw [holds, Leaf.holds_of_resolve? hfield]
    apply (Value.answers_looseEquals hjson hjson').mpr
    exact .inr (.inr ⟨hmodest, hmodest', hwritable, Value.isWritable_of_isScalar hscalar hmodest'⟩)
  . intro facts' hfield' op
    rw [holds, Leaf.holds_of_resolve? hfield']
    exact Leaf.holdsOn_none op

def paid : Facts := ⟨.object [("paid", .bool true)], .null⟩

/-- A truth value and a padded text are compared as numbers. -/
theorem comparisons_coherent_paid :
    (leaf ⟨.entity, "paid", .atMost, .text " 1 "⟩).holds paid = .ok true ∧
      (leaf ⟨.entity, "paid", .less, .text " 1 "⟩).holds paid = .ok false ∧
      (leaf ⟨.entity, "paid", .unequal, .text " 1 "⟩).holds paid = .ok false := by
  have hfield : (Leaf.source paid .entity).resolve? "paid" = .ok (some (.bool true)) := rfl
  have hread : (Value.text " 1 ").toNumber = .ok (some (.finite false Binary64.one)) := by decide +kernel
  have hequal : (leaf ⟨.entity, "paid", .equal, .text " 1 "⟩).holds paid = .ok true := by decide +kernel
  obtain ⟨hcoherent, -⟩ := comparisons_coherent hfield (Value.toNumber_bool true) hread
  obtain ⟨hless, hequal', -, -, hatMost, -⟩ := hcoherent.numbers _ _ rfl rfl
  have heq : (Binary64.ofInt true.toInt).eq (.finite false Binary64.one) := Except.ok.inj (hequal'.symm.trans hequal)
  have hlt : (Binary64.ofInt true.toInt).lt (.finite false Binary64.one) = false := by decide +kernel
  rw [heq, Bool.or_true] at hatMost
  rw [hlt] at hless
  exact ⟨hatMost, hless, hcoherent.unequal.trans (congrArg (Except.map (!·)) hequal)⟩

end Rule

end StageGate
