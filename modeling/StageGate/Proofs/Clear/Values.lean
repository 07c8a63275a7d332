import StageGate.Criterion.Cache
import StageGate.Proofs.Outcome
import StageGate.Value.Integer

/-!
This module contains that whatever is computed from values, rules, criteria and times is plain: it can break
down or find a misconfiguration, and everything else that is turned down is turned down by an operation.
-/

namespace StageGate

/-! ## Values -/

namespace Value

@[simp]
theorem plain_printed (v : Value) : Plain v.printed := by
  simp [printed]

@[simp]
theorem plain_magnitudes (v w : Value) : Plain (magnitudes v w) := by
  unfold magnitudes
  split <;> simp

@[simp]
theorem plain_atMost (v w : Value) : Plain (atMost v w) := by
  unfold atMost
  split <;> simp

mutual

@[simp]
theorem plain_lt : ∀ v w : Value, Plain (lt v w)
  | .list xs, .list ys => by
    rw [lt]
    exact plain_ltItems xs ys
  | v, w => by
    unfold lt
    split
    . simp
    . simp
    . apply plain_ltItems
    . simp

theorem plain_ltItems : ∀ vs ws : List Value, Plain (ltItems vs ws)
  | [], ys => by simp [ltItems]
  | _ :: _, [] => by simp [ltItems]
  | x :: xs, y :: ys => by
    rw [ltItems]
    split
    . exact plain_ltItems xs ys
    . exact plain_lt x y

end

theorem plain_insertInOrder (v : Value) (ws : List Value) : Plain (insertInOrder v ws) := by
  induction ws with
  | nil => simp [insertInOrder]
  | cons w ws ih => simp [insertInOrder, ih]

@[simp]
theorem plain_sort (vs : List Value) : Plain (sort vs) := by
  unfold sort
  apply ends_foldlM
  intro sorted v
  apply plain_insertInOrder

theorem plain_orElse {x : Option Binary64} {b : Breakdown} (h : (Fault.broken b).IsPlain) :
    Plain (toFloat.orElse x b) := by
  cases x <;> simp [toFloat.orElse, h]

@[simp]
theorem plain_toFloat (v : Value) : Plain v.toFloat := by
  unfold toFloat
  split
  . simp
  . apply plain_orElse
    simp
  . split
    . simp
    . apply plain_orElse
      simp

theorem plain_subDecimal (x y : Decimal) : Plain (subDecimal x y) := by
  unfold subDecimal
  split <;> simp

@[simp]
theorem plain_sub (v w : Value) : Plain (v.sub w) := by
  unfold sub
  split
  . simp
  . apply plain_subDecimal
  . split
    . apply plain_subDecimal
    . simp
  . split
    . apply plain_subDecimal
    . simp
  . split <;> simp

@[simp]
theorem plain_succ (v : Value) : Plain v.succ :=
  plain_sub v _

@[simp]
theorem plain_positivePart (v : Value) : Plain v.positivePart := by
  simp [positivePart]

theorem plain_orTooLarge (n : Option Int) : Plain (toInteger.orTooLarge n) := by
  cases n <;> simp [toInteger.orTooLarge]

@[simp]
theorem plain_toInteger (v : Value) : Plain v.toInteger := by
  unfold toInteger
  split
  . simp
  . simp
  . simp
  . simp
  . apply plain_orTooLarge
  . apply plain_orTooLarge
  . split <;> simp
  . simp

@[simp]
theorem plain_elements (v : Value) : Plain v.elements := by
  unfold elements
  split <;> simp

@[simp]
theorem plain_items (v : Value) : Plain v.items := by
  simp [items]

@[simp]
theorem plain_asPair (v : Value) : Plain v.asPair := by
  unfold asPair
  simp only [ends_bind, plain_elements, true_and]
  intro items _
  split <;> simp

@[simp]
theorem plain_asMembers (v : Value) : Plain v.asMembers := by
  unfold asMembers
  split
  . simp
  . split
    . simp
    . simp only [ends_bind, plain_elements, true_and]
      intros
      apply ends_foldlM
      simp [asMembers.addPair]

@[simp]
theorem plain_members (v : Value) : Plain v.members := by
  unfold members
  split <;> simp

/-! Readings that rules compare by -/

theorem plain_toNumber_orElse {x : Option Binary64} {b : Breakdown}
    (h : (Fault.broken b).IsPlain) : Plain (toNumber.orElse x b) := by
  cases x <;> simp [toNumber.orElse, h]

@[simp]
theorem plain_toNumber (v : Value) : Plain v.toNumber := by
  unfold toNumber
  split
  . simp
  . apply plain_toNumber_orElse
    simp
  . simp
  . simp only [ends_map]
    apply plain_toNumber_orElse
    simp
  . simp
  . simp

@[simp]
theorem plain_written (v : Value) : Plain v.written := by
  simp [written]

@[simp]
theorem plain_looseEquals (v w : Value) : Plain (v.looseEquals w) := by
  unfold looseEquals
  split
  . simp
  . split
    . simp
    . unfold equalNumbersOrTexts
      simp only [ends_bind, plain_toNumber, true_and]
      intros
      split <;> simp

@[simp]
theorem plain_containsText (v w : Value) : Plain (v.containsText w) := by
  simp [containsText]

@[simp]
theorem plain_member? (v : Value) (name : String) : Plain (v.member? name) := by
  unfold member?
  split <;> simp

@[simp]
theorem plain_resolve? (v : Value) (name : String) : Plain (v.resolve? name) := by
  unfold resolve?
  simp only [ends_bind, plain_member?, true_and]
  intros
  split <;> simp

end Value

/-! ## Columns -/

namespace Column

@[simp]
theorem plain_checkInt (n : Int) : Plain (checkInt n) := by
  simp [checkInt]

@[simp]
theorem plain_checkText (s : String) : Plain (checkText s) := by
  simp [checkText]

@[simp]
theorem plain_text (v : Value) : Plain (text v) := by
  cases v with
  | float x => cases x <;> simp [text]
  | _ => simp [text]

@[simp]
theorem plain_renew (kept : Option String) (v : Value) : Plain (renew kept v) := by
  simp [renew]

@[simp]
theorem plain_number (v : Value) : Plain (number v) := by
  cases v <;> simp [number]

@[simp]
theorem plain_checkDocument (v : Value) : Plain (checkDocument v) := by
  simp [checkDocument]

@[simp]
theorem plain_flag? (v : Value) : Plain (flag? v) := by
  unfold flag?
  split <;> simp

@[simp]
theorem plain_time? (v : Value) : Plain (time? v) := by
  unfold time?
  split
  . simp
  . split <;> simp
  . simp

end Column

/-! ## Rules and criteria -/

namespace Rule

@[simp]
theorem plain_fault {α : Type} (path reason : String) : Plain (fault path reason : Except Fault α) := by
  simp [fault]

@[simp]
theorem plain_unknownName {α : Type} (key path : String) (word : Value) :
    Plain (unknownName key path word : Except Fault α) := by
  unfold unknownName
  split <;> simp

@[simp]
theorem plain_readName {α : Type} (key path : String) (ofName? : String → Option α) (word : Value) :
    Plain (readName key path ofName? word) := by
  unfold readName
  split
  . simp
  . split
    . split <;> simp
    . simp

@[simp]
theorem plain_readField (path : String) (fields : Fields) : Plain (readField path fields) := by
  unfold readField
  split <;> simp

@[simp]
theorem plain_readOperand (path : String) (op : Operator) (fields : Fields) :
    Plain (readOperand path op fields) := by
  simp [readOperand]

@[simp]
theorem plain_readLeaf (path : String) (fields : Fields) : Plain (readLeaf path fields) := by
  simp [readLeaf]

@[simp]
theorem plain_readLogic (path : String) (fields : Fields) : Plain (readLogic path fields) := by
  unfold readLogic noLogic
  split
  . split <;> simp
  . split <;> simp

section

variable {readChild : String → Value → Except Fault Rule} (h : ∀ p v, Plain (readChild p v))

include h

theorem plain_readChildren (path : String) (i : Nat) (vs : List Value) :
    Plain (readChildren readChild path i vs) := by
  induction vs generalizing i with
  | nil => simp [readChildren]
  | cons v vs ih => simp [readChildren, h, ih]

theorem plain_readNode (path : String) (fields : Fields) : Plain (readNode readChild path fields) := by
  unfold readNode
  split
  . unfold readGroup
    simp only [ends_bind, plain_readLogic, true_and]
    intros
    split
    . simp [noChildren]
    . simp [plain_readChildren h]
    . simp
  . simp

end

theorem plain_readWithin (levels : Nat) (path : String) (v : Value) :
    Plain (readWithin levels path v) := by
  induction levels generalizing path v with
  | zero => cases v <;> simp [readWithin]
  | succ levels ih => cases v <;> simp [readWithin, plain_readNode ih]

@[simp]
theorem plain_read (path : String) (v : Value) : Plain (read path v) :=
  plain_readWithin _ path v

end Rule

@[simp]
theorem Kind.plain_readRule (k : Kind) (path : String) (rule : Value) : Plain (k.readRule path rule) := by
  simp [readRule]

theorem CheckSource.plain_compile (s : CheckSource) : Plain s.compile := by
  unfold compile
  split
  . simp only [ends_bind, Kind.plain_readRule, true_and]
    intros
    unfold Check.ofParts
    split <;> simp
  . simp

@[simp]
theorem CriteriaCache.plain_load (cache : CriteriaCache) (stage : Int) (sources : List CheckSource) :
    Plain (cache.load stage sources) := by
  unfold load
  split
  . simp
  . simp only [ends_bind, ends_pure, implies_true, and_true]
    apply ends_mapM
    intro s _
    apply CheckSource.plain_compile

@[simp]
theorem Leaf.plain_holds (facts : Facts) (l : Leaf) : Plain (l.holds facts) := by
  unfold holds
  simp only [ends_bind, Value.plain_resolve?, true_and]
  intro actual _
  unfold holdsOn
  split
  . simp
  . simp
  . split
    . simp
    . unfold holdsOf
      split
      . simp
      . simp
      . simp
      . unfold holdsOrdered
        simp only [ends_bind, Value.plain_toNumber, true_and]
        intros
        split <;> simp

namespace Rule

mutual

@[simp]
theorem plain_holds (facts : Facts) : ∀ r : Rule, Plain (holds facts r)
  | .leaf l => by simp [holds]
  | .group .all children => by
    rw [holds]
    exact plain_allHold facts children
  | .group .any children => by
    rw [holds]
    exact plain_anyHolds facts children

theorem plain_allHold (facts : Facts) : ∀ rs : List Rule, Plain (allHold facts rs)
  | [] => by simp [allHold]
  | r :: rs => by
    rw [allHold]
    split
    . exact plain_allHold facts rs
    . exact plain_holds facts r

theorem plain_anyHolds (facts : Facts) : ∀ rs : List Rule, Plain (anyHolds facts rs)
  | [] => by simp [anyHolds]
  | r :: rs => by
    rw [anyHolds]
    split
    . exact plain_anyHolds facts rs
    . exact plain_holds facts r

end

end Rule

@[simp]
theorem Verdict.plain_of (facts : Facts) (flags : FlagTable) (checks : List Check) :
    Plain (Verdict.of facts flags checks) := by
  induction checks with
  | nil => simp [Verdict.of]
  | cons c cs ih =>
    have hmet : Plain (c.isMet facts (flags.of c.id)) := by
      unfold Check.isMet
      split <;> simp
    simp [Verdict.of, hmet, ih]

/-! ## Time and health -/

@[simp]
theorem Instant.plain_addDays (t : Instant) (days : Value) : Plain (t.addDays days) := by
  unfold addDays
  simp only [ends_bind]
  constructor
  . unfold microsOfDays
    split
    . simp
    . split <;> simp
    . split <;> simp
  . intros
    split <;> simp

@[simp]
theorem Standing.plain_of (elapsed deadline window : Value) : Plain (Standing.of elapsed deadline window) := by
  have hs : Plain (isSenseless deadline) := by cases deadline <;> simp [isSenseless]
  simp [Standing.of, hs]

@[simp]
theorem Health.plain_of (entered now : Instant) (deadline window : Value) :
    Plain (Health.of entered now deadline window) := by
  simp [Health.of]

end StageGate
