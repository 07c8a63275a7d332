import StageGate.Proofs.Canonical

/-!
This module contains the grammar of rules: what a node has to show under its keys, which nodes a rule has, and
where the first flaw of a value is that is no rule. A value is read as a rule if none of its nodes has a flaw,
and otherwise the fault leads to the first one, with its parents before it and its siblings from left to right.
-/

namespace StageGate

namespace Text

theorem strip_eq_nil {p : Char → Bool} {cs : List Char} : strip p cs = [] ↔ ∀ c ∈ cs, p c := by
  rw [strip, List.reverse_eq_nil_iff, List.dropWhile_eq_nil_iff]
  simp only [List.mem_reverse]
  rw [← List.dropWhile_eq_nil_iff, dropWhile_dropWhile, List.dropWhile_eq_nil_iff]

theorem trim_eq_empty {s : String} : trim s = "" ↔ s.toList.any (!isBlank ·) = false := by
  rw [← String.toList_inj, trim, String.toList_ofList, String.toList_empty, strip_eq_nil]
  simp

end Text

namespace Rule

/-! ## What is written under the keys -/

def domainWords : List String :=
  ["entity-field", "activity-metric", "time-metric", "relationship-metric", "lead_data", "entity_field",
    "activity", "activity_metric", "time", "time_metric", "relationship", "relationship_metric"]

def operatorWords : List String :=
  [">", "<", ">=", "<=", "==", "!=", "contains", "exists", "not-exists", "not_exists", "="]

/-- The operators that take no value. -/
def bareWords : List String :=
  ["exists", "not-exists", "not_exists"]

def isOneOf (words : List String) : Option Value → Bool
  | some (.text s) => words.contains s
  | _ => false

def isLogic : Option Value → Bool
  | some (.text s) => ["AND", "OR"].contains s.toUpper
  | _ => false

def isLabel : Option Value → Bool
  | some (.text s) => s.toList.any (!Text.isBlank ·)
  | _ => false

def isFilledList : Option Value → Bool
  | some (.list items) => !items.isEmpty
  | _ => false

def childKey (fields : Fields) : String :=
  if fields.has "children" then "children" else "rules"

def domainWord? (fields : Fields) : Option Value :=
  if fields.has "domain" then fields.get? "domain" else fields.get? "type"

def hasOperand (fields : Fields) : Bool :=
  (isOneOf bareWords (fields.get? "operator") || fields.has "value") && isScalar (fields.getD "value" .null)

def groupDemands (fields : Fields) : List (String × Bool) :=
  [("logic", isLogic (fields.get? "logic")), (childKey fields, isFilledList (fields.get? (childKey fields)))]

def leafDemands (fields : Fields) : List (String × Bool) :=
  [("domain", isOneOf domainWords (domainWord? fields)), ("field", isLabel (fields.get? "field")),
    ("operator", isOneOf operatorWords (fields.get? "operator")), ("value", hasOperand fields)]

/-- The keys of a node and whether it shows there what it has to, in the order in which they are looked at. -/
def demands (fields : Fields) : List (String × Bool) :=
  if isGroup fields then groupDemands fields else leafDemands fields

def unmet? (ds : List (String × Bool)) : Option String :=
  (ds.find? fun d => !d.2).map (·.1)

/-- What is wrong with a node of some depth: the first of its keys that is, or the whole node. -/
def flaw? (depth : Nat) : Value → Option (Option String)
  | .object fields => if maxDepth < depth then some none else (unmet? (demands fields)).map some
  | _ => some none

/-! ## Nodes -/

def childrenOf : Value → List Value
  | .object fields =>
    match isGroup fields, Fields.get? fields (childKey fields) with
    | true, some (.list items) => items
    | _, _ => []
  | _ => []

/-- The node that a way of steps from parent to child leads to. -/
def nodeAt? : List Nat → Value → Option Value
  | [], v => some v
  | i :: way, v => (childrenOf v)[i]?.bind (nodeAt? way)

def locate (path : String) (key : Option String) : List Nat → String
  | [] => match key with
    | some key => path ++ "." ++ key
    | none => path
  | i :: way => locate (childPath path i) key way

/-- Whether no node of a value has a flaw, the value being at some depth itself. -/
def IsSound (depth : Nat) (v : Value) : Prop :=
  ∀ way node, nodeAt? way v = some node → flaw? (depth + way.length) node = none

/-- The first node with a flaw, by the order of the ways that lead to nodes: no flaw is at a way before its own. -/
structure FirstFlaw (depth : Nat) (v : Value) (way : List Nat) (node : Value) (key : Option String) : Prop where
  found : nodeAt? way v = some node
  flawed : flaw? (depth + way.length) node = some key
  first : ∀ way' node', nodeAt? way' v = some node' → flaw? (depth + way'.length) node' ≠ none →
    ¬List.Lex (· < ·) way' way

section

variable {depth : Nat} {v node : Value} {way : List Nat} {key : Option String}

theorem nodeAt?_cons {i : Nat} : nodeAt? (i :: way) v = some node ↔
    ∃ c, (childrenOf v)[i]? = some c ∧ nodeAt? way c = some node := by
  rw [nodeAt?, Option.bind_eq_some_iff]

theorem IsSound.of_children (h : flaw? depth v = none)
    (hc : ∀ (i : Nat) c, (childrenOf v)[i]? = some c → IsSound (depth + 1) c) : IsSound depth v := by
  rintro (_ | ⟨i, way⟩) node hnode
  . cases hnode
    exact h
  . obtain ⟨c, hi, hway⟩ := nodeAt?_cons.mp hnode
    have := hc i c hi way node hway
    rwa [List.length_cons, Nat.add_comm way.length, ← Nat.add_assoc]

theorem FirstFlaw.here (h : flaw? depth v = some key) : FirstFlaw depth v [] v key :=
  ⟨rfl, h, fun _ _ _ _ => nofun⟩

theorem FirstFlaw.child {i : Nat} {c : Value} (h : flaw? depth v = none) (hi : (childrenOf v)[i]? = some c)
    (hbefore : ∀ j < i, ∀ c', (childrenOf v)[j]? = some c' → IsSound (depth + 1) c')
    (hc : FirstFlaw (depth + 1) c way node key) : FirstFlaw depth v (i :: way) node key where
  found := nodeAt?_cons.mpr ⟨c, hi, hc.found⟩
  flawed := by
    have := hc.flawed
    rwa [List.length_cons, Nat.add_comm way.length, ← Nat.add_assoc]
  first := by
    rintro (_ | ⟨j, way'⟩) node' hnode' hflaw
    . cases hnode'
      exact absurd h hflaw
    . obtain ⟨c', hj, hway'⟩ := nodeAt?_cons.mp hnode'
      rw [List.length_cons, Nat.add_comm way'.length, ← Nat.add_assoc] at hflaw
      rw [List.cons_lex_cons_iff]
      rintro (hlt | ⟨rfl, hlex⟩)
      . exact hflaw (hbefore j hlt c' hj way' node' hway')
      . rw [hi, Option.some.injEq] at hj
        subst hj
        exact hc.first way' node' hway' hflaw hlex

theorem FirstFlaw.not_isSound (h : FirstFlaw depth v way node key) : ¬IsSound depth v := by
  intro hsound
  have := hsound way node h.found
  rw [h.flawed] at this
  cases this

end

/-! ## What the readers report -/

/--
A value in the place of a word that no table can be asked for, as lists and objects are no keys, or that no message can
show, as an integer in it has too many digits.
-/
def isMisfit : Option Value → Bool
  | some w => w.isTrue && !(w.isKey && w.isWritable)
  | none => false

/-- A value in the place of a logic that is not compared, as it has no text. -/
def isTextless : Option Value → Bool
  | some w => !w.isWritable
  | none => false

/-- Whether the flaw of a node is a value in the place of a word that cannot even be turned down. -/
def HasMisfit (key : Option String) : Value → Prop
  | .object fields =>
    key = some "domain" ∧ isMisfit (domainWord? fields) ∨
      key = some "operator" ∧ isMisfit (Fields.get? fields "operator") ∨
      key = some "logic" ∧ isTextless (Fields.get? fields "logic")
  | _ => False

/-- The fault that a flaw of a node comes to: it leads to the flaw, but for a misfit. -/
def Reports (place : String) (key : Option String) (node : Value) (e : Fault) : Prop :=
  (HasMisfit key node ∧ (e = .broken .wrongKind ∨ e = .broken .notAnInteger)) ∨
    (¬HasMisfit key node ∧ ∃ reason, e = .refused (.misconfigured reason place []))

/-- A computation that goes through demands one by one, up to the first that is not met. -/
def Meets {α : Type} (ds : List (String × Bool)) (report : String → Fault → Prop) : Except Fault α → Prop
  | .ok _ => unmet? ds = none
  | .error e => ∃ key, unmet? ds = some key ∧ report key e

section

variable {α β : Type} {key : String} {holds : Bool} {ds : List (String × Bool)} {report : String → Fault → Prop}

theorem unmet?_single_none : unmet? [(key, holds)] = none ↔ holds = true := by
  cases holds <;> simp [unmet?]

theorem Meets.bind {x : Except Fault α} {f : α → Except Fault β} (hx : Meets [(key, holds)] report x)
    (hf : ∀ a, x = .ok a → Meets ds report (f a)) : Meets ((key, holds) :: ds) report (x >>= f) := by
  cases x with
  | ok a =>
    have hholds : holds = true := unmet?_single_none.mp hx
    subst hholds
    exact hf a rfl
  | error e =>
    obtain ⟨key', hkey', hreport⟩ := hx
    cases holds with
    | true => simp [unmet?] at hkey'
    | false => exact ⟨key', hkey', hreport⟩

theorem meets_ok {a : α} (h : holds = true) : Meets [(key, holds)] report (.ok a) :=
  unmet?_single_none.mpr h

theorem meets_error {e : Fault} (h : holds = false) (he : report key e) :
    Meets [(key, holds)] report (.error e : Except Fault α) := by
  subst h
  exact ⟨key, rfl, he⟩

end

theorem isSome_of_words {α : Type} {ofName? : String → Option α} {words : List String}
    (hwords : ∀ s ∈ words, (ofName? s).isSome) (hothers : ∀ s ∉ words, ofName? s = none) (s : String) :
    (ofName? s).isSome = words.contains s := by
  by_cases h : s ∈ words
  . rw [hwords s h, List.contains_iff_mem.mpr h]
  . rw [hothers s h, Option.isSome_none, eq_comm, ← Bool.not_eq_true, List.contains_iff_mem]
    exact h

theorem isSome_domain (s : String) : (Domain.ofName? s).isSome = domainWords.contains s := by
  apply isSome_of_words (by decide)
  intro s h
  simp only [domainWords, List.mem_cons, List.not_mem_nil, or_false, not_or] at h
  simp [Domain.ofName?, h]

theorem isSome_operator (s : String) : (Operator.ofName? s).isSome = operatorWords.contains s := by
  apply isSome_of_words (by decide)
  intro s h
  simp only [operatorWords, List.mem_cons, List.not_mem_nil, or_false, not_or] at h
  simp [Operator.ofName?, h]

theorem isSome_logic (s : String) : (Logic.ofName? s).isSome = ["AND", "OR"].contains s.toUpper := by
  unfold Logic.ofName?
  dsimp only
  split_ifs <;> simp_all

theorem takesValue_of_ofName? {s : String} {op : Operator} (h : Operator.ofName? s = some op) :
    op.takesValue = !bareWords.contains s := by
  have hmem : s ∈ operatorWords := by
    rw [← List.contains_iff_mem, ← isSome_operator, h]
    rfl
  have hall : ∀ s ∈ operatorWords, (Operator.ofName? s).map Operator.takesValue = some (!bareWords.contains s) := by
    decide
  have := hall s hmem
  rwa [h, Option.map_some, Option.some.injEq] at this

section

variable {fields : Fields} {path : String}

/-- What a demand that is not met comes to at a node. -/
abbrev ReportsAt (path : String) (fields : Fields) (key : String) (e : Fault) : Prop :=
  Reports (path ++ "." ++ key) (some key) (.object fields) e

theorem reports_fault {key reason : String} (h : ¬HasMisfit (some key) (.object fields)) :
    ReportsAt path fields key (.refused (.misconfigured reason (path ++ "." ++ key) [])) :=
  .inr ⟨h, reason, rfl⟩

theorem reports_suffix {key suffix reason : String} (hkey : "." ++ key = suffix)
    (h : ¬HasMisfit (some key) (.object fields)) :
    ReportsAt path fields key (.refused (.misconfigured reason (path ++ suffix) [])) := by
  rw [← hkey, ← String.append_assoc]
  exact reports_fault h

theorem hasMisfit_domain : HasMisfit (some "domain") (.object fields) ↔ isMisfit (domainWord? fields) := by
  simp [HasMisfit]

theorem hasMisfit_operator : HasMisfit (some "operator") (.object fields) ↔ isMisfit (fields.get? "operator") := by
  simp [HasMisfit]

theorem hasMisfit_logic : HasMisfit (some "logic") (.object fields) ↔ isTextless (fields.get? "logic") := by
  simp [HasMisfit]

theorem not_hasMisfit {key : String} (hdomain : key ≠ "domain") (hoperator : key ≠ "operator")
    (hlogic : key ≠ "logic") : ¬HasMisfit (some key) (.object fields) := by
  simp [HasMisfit, hdomain, hoperator, hlogic]

theorem meets_unknownName {α : Type} {key : String} {word? : Option Value} {holds : Bool} (hholds : holds = false)
    (hmisfit : HasMisfit (some key) (.object fields) ↔ isMisfit word?) (htrue : (word?.getD .null).isTrue) :
    Meets [(key, holds)] (ReportsAt path fields) (unknownName key path (word?.getD .null) : Except Fault α) := by
  cases word? with
  | none => cases htrue
  | some w =>
    rw [Option.getD_some] at htrue ⊢
    have hmisfit : HasMisfit (some key) (.object fields) ↔ ¬(w.isKey ∧ w.isWritable) := by
      rw [hmisfit, isMisfit, htrue, Bool.true_and, Bool.not_eq_true', ← Bool.not_eq_true, Bool.and_eq_true]
    unfold unknownName Value.printed
    by_cases hkey : w.isKey
    . rw [if_pos hkey]
      by_cases hwritable : w.isWritable
      . rw [if_pos hwritable]
        exact meets_error hholds (reports_fault (by simp [hmisfit, hkey, hwritable]))
      . rw [if_neg hwritable]
        exact meets_error hholds (.inl ⟨by simp [hmisfit, hwritable], .inr rfl⟩)
    . rw [if_neg hkey]
      exact meets_error hholds (.inl ⟨by simp [hmisfit, hkey], .inl rfl⟩)

theorem isOneOf_of_isTrue_eq_false {words : List String} (hempty : words.contains "" = false) {w : Value}
    (h : w.isTrue = false) : isOneOf words (some w) = false := by
  unfold isOneOf
  split
  . next s heq =>
    cases heq
    have hs : s = "" := by simpa [Value.isTrue] using h
    rw [hs, hempty]
  . rfl

theorem meets_readName {α : Type} {ofName? : String → Option α} {words : List String} {key : String}
    {word? : Option Value} (hnames : ∀ s, (ofName? s).isSome = words.contains s) (hempty : words.contains "" = false)
    (hmisfit : HasMisfit (some key) (.object fields) ↔ isMisfit word?) :
    Meets [(key, isOneOf words word?)] (ReportsAt path fields)
      (readName key path ofName? (word?.getD .null)) := by
  unfold readName
  split
  . next hfalse =>
    rw [Bool.not_eq_true'] at hfalse
    cases word? with
    | none => exact meets_error rfl (reports_fault (by simp [hmisfit, isMisfit]))
    | some w =>
      rw [Option.getD_some] at hfalse
      exact meets_error (isOneOf_of_isTrue_eq_false hempty hfalse) (reports_fault (by simp [hmisfit, isMisfit, hfalse]))
  . next htrue =>
    rw [Bool.not_eq_true', Bool.not_eq_false] at htrue
    split
    . next s hword =>
      obtain rfl : word? = some (.text s) := by
        cases word? with
        | none => cases hword
        | some w => rw [← hword, Option.getD_some]
      have hs := hnames s
      split
      . next a ha =>
        rw [ha] at hs
        exact meets_ok hs.symm
      . next hnone =>
        rw [hnone] at hs
        have hwritable : (Value.text s).isWritable := rfl
        exact meets_error hs.symm (reports_fault (by simp [hmisfit, isMisfit, Value.isKey, hwritable]))
    . next hword =>
      refine meets_unknownName ?_ hmisfit htrue
      unfold isOneOf
      split
      . next s => exact absurd rfl (hword s)
      . rfl

theorem meets_readField : Meets [("field", isLabel (fields.get? "field"))] (ReportsAt path fields)
    (readField path fields) := by
  have hreport {reason : String} : ReportsAt path fields "field" (.refused (.misconfigured reason (path ++ ".field") [])) :=
    reports_suffix (by decide) (not_hasMisfit (by decide) (by decide) (by decide))
  unfold readField
  split
  . next s hs =>
    rw [hs]
    dsimp only
    split
    . next hblank => exact meets_error (Text.trim_eq_empty.mp hblank) hreport
    . next hblank => exact meets_ok (Bool.not_eq_false _ ▸ mt Text.trim_eq_empty.mpr hblank)
  . next hnone =>
    refine meets_error ?_ hreport
    unfold isLabel
    split
    . next s hs => exact absurd hs (hnone s)
    . rfl

theorem meets_readOperand {op : Operator} (hop : op.takesValue = !isOneOf bareWords (fields.get? "operator")) :
    Meets [("value", hasOperand fields)] (ReportsAt path fields) (readOperand path op fields) := by
  have hreport {reason : String} : ReportsAt path fields "value" (.refused (.misconfigured reason (path ++ ".value") [])) :=
    reports_suffix (by decide) (not_hasMisfit (by decide) (by decide) (by decide))
  have hmissing : (op.takesValue && !fields.has "value") =
      !(isOneOf bareWords (fields.get? "operator") || fields.has "value") := by
    rw [hop, Bool.not_or]
  unfold readOperand hasOperand
  rw [hmissing]
  cases isOneOf bareWords (fields.get? "operator") || fields.has "value" with
  | false => exact meets_error rfl hreport
  | true =>
    dsimp only
    cases hscalar : isScalar (fields.getD "value" .null) with
    | false => exact meets_error rfl hreport
    | true => exact meets_ok rfl

theorem getD_domain : fields.getD "domain" (fields.getD "type" .null) = (domainWord? fields).getD .null := by
  unfold Fields.getD domainWord? Fields.has
  cases fields.get? "domain" <;> rfl

theorem unknownName_ne_ok {α : Type} (key path : String) (word : Value) (a : α) :
    unknownName key path word ≠ .ok a := by
  unfold unknownName Value.printed
  split
  . split <;> exact nofun
  . exact nofun

theorem meets_readLeaf : Meets (leafDemands fields) (ReportsAt path fields) (readLeaf path fields) := by
  unfold readLeaf leafDemands
  rw [getD_domain]
  refine (meets_readName isSome_domain (by decide) hasMisfit_domain).bind fun domain _ => ?_
  refine meets_readField.bind fun field _ => ?_
  refine (meets_readName isSome_operator (by decide) hasMisfit_operator).bind fun op hop => ?_
  have htakes : op.takesValue = !isOneOf bareWords (fields.get? "operator") := by
    unfold readName at hop
    split at hop
    . cases hop
    . split at hop
      . next s hs =>
        split at hop
        . next op' hname =>
          cases hop
          have hget : fields.get? "operator" = some (.text s) := by
            cases hv : fields.get? "operator" with
            | none => simp [hv] at hs
            | some v => simpa [hv] using hs
          rw [hget]
          exact takesValue_of_ofName? hname
        . cases hop
      . exact absurd hop (unknownName_ne_ok _ _ _ _)
  apply (meets_readOperand htakes).bind
  intro value _
  rfl

theorem meets_readLogic : Meets [("logic", isLogic (fields.get? "logic"))] (ReportsAt path fields)
    (readLogic path fields) := by
  have hreport {reason : String} (h : isTextless (fields.get? "logic") = false) :
      ReportsAt path fields "logic" (.refused (.misconfigured reason (path ++ ".logic") [])) :=
    reports_suffix (by decide) (by rw [hasMisfit_logic, h]; exact Bool.false_ne_true)
  unfold readLogic Fields.getD
  cases hword : fields.get? "logic" with
  | none => exact meets_error rfl (hreport (by rw [hword]; rfl))
  | some w =>
    rw [hword] at hreport
    rw [Option.getD_some]
    split
    . next s =>
      have hsome := isSome_logic s
      split
      . next logic hlogic =>
        rw [hlogic] at hsome
        exact meets_ok hsome.symm
      . next hnone =>
        rw [hnone] at hsome
        exact meets_error hsome.symm (hreport rfl)
    . next hothers =>
      have hlogic : isLogic (some w) = false := by
        unfold isLogic
        split
        . next s hs => exact absurd (Option.some.inj hs) (hothers s)
        . rfl
      split
      . next hwritable => exact meets_error hlogic (hreport (by rw [isTextless, hwritable]; rfl))
      . next hwritable =>
        refine meets_error hlogic (.inl ⟨?_, .inr rfl⟩)
        rw [hasMisfit_logic, hword, isTextless]
        simpa using hwritable

/-! ## From a node to its children -/

/-- A reading that comes to a rule where there is no flaw, and to the first flaw where there is one. -/
def Follows (depth : Nat) (path : String) (v : Value) : Except Fault Rule → Prop
  | .ok _ => IsSound depth v
  | .error e => ∃ way node key, FirstFlaw depth v way node key ∧ Reports (locate path key way) key node e

variable {depth : Nat} {readChild : String → Value → Except Fault Rule}

theorem flaw?_object (h : depth ≤ maxDepth) : flaw? depth (.object fields) = (unmet? (demands fields)).map some := by
  rw [flaw?, if_neg (Nat.not_lt.mpr h)]

theorem follows_here {reason : String} {v : Value} (h : flaw? depth v = some none) :
    Follows depth path v (fault path reason) :=
  ⟨[], v, none, .here h, .inr ⟨by cases v <;> simp [HasMisfit], reason, rfl⟩⟩

theorem follows_unmet {key : String} {e : Fault} (h : depth ≤ maxDepth) (hkey : unmet? (demands fields) = some key)
    (he : ReportsAt path fields key e) : Follows depth path (.object fields) (.error e) :=
  ⟨[], _, some key, .here (by rw [flaw?_object h, hkey, Option.map_some]), he⟩

/-- Of a list of children the first one that cannot be read is reported, those before it being read. -/
theorem readChildren_cases {i : Nat} (vs : List Value) :
    (∃ rs, readChildren readChild path i vs = .ok rs ∧
      ∀ (j : Nat) c, vs[j]? = some c → ∃ r, readChild (childPath path (i + j)) c = .ok r) ∨
    ∃ e, readChildren readChild path i vs = .error e ∧
      ∃ (j : Nat) (c : Value), vs[j]? = some c ∧ readChild (childPath path (i + j)) c = .error e ∧
        ∀ k < j, ∀ c', vs[k]? = some c' → ∃ r, readChild (childPath path (i + k)) c' = .ok r := by
  induction vs generalizing i with
  | nil => exact .inl ⟨[], rfl, by simp⟩
  | cons v vs ih =>
    cases hv : readChild (childPath path i) v with
    | error e =>
      refine .inr ⟨e, by rw [readChildren, hv]; rfl, 0, v, rfl, hv, ?_⟩
      intro k hk
      omega
    | ok r =>
      have hnext {j : Nat} {c : Value} (h : ∃ r, readChild (childPath path (i + 1 + j)) c = .ok r) :
          ∃ r, readChild (childPath path (i + (j + 1))) c = .ok r := by
        rwa [Nat.add_comm j, ← Nat.add_assoc]
      rcases @ih (i + 1) with ⟨rs, hrs, hall⟩ | ⟨e, he, j, c, hj, hc, hbefore⟩
      . refine .inl ⟨r :: rs, by rw [readChildren, hv, ok_bind, hrs]; rfl, ?_⟩
        rintro (_ | j) c hj
        . cases hj
          exact ⟨r, hv⟩
        . exact hnext (hall j c hj)
      . refine .inr ⟨e, by rw [readChildren, hv, ok_bind, he]; rfl, j + 1, c, hj, ?_, ?_⟩
        . rwa [Nat.add_comm j, ← Nat.add_assoc]
        . rintro (_ | k) hk c' hk'
          . cases hk'
            exact ⟨r, hv⟩
          . exact hnext (hbefore k (by omega) c' hk')

/-- Below a node without a flaw of its own, the first child with a flaw is the one that is reported. -/
theorem follows_readChildren {children : List Value} {logic : Logic} (hown : flaw? depth (.object fields) = none)
    (hchildren : childrenOf (.object fields) = children)
    (hc : ∀ path c, Follows (depth + 1) path c (readChild path c)) :
    Follows depth path (.object fields) (do return .group logic (← readChildren readChild path 0 children)) := by
  have hread {j : Nat} {c : Value} (h : ∃ r, readChild (childPath path (0 + j)) c = .ok r) : IsSound (depth + 1) c := by
    obtain ⟨r, hr⟩ := h
    have := hc (childPath path (0 + j)) c
    rwa [hr] at this
  rcases @readChildren_cases path readChild 0 children with ⟨rs, hrs, hall⟩ | ⟨e, he, j, c, hj, hcj, hbefore⟩
  . rw [hrs]
    refine IsSound.of_children hown ?_
    rw [hchildren]
    exact fun j c hj => hread (hall j c hj)
  . rw [he]
    have hfirst := hc (childPath path (0 + j)) c
    rw [hcj, Nat.zero_add] at hfirst
    obtain ⟨way, node, key, hflaw, hreport⟩ := hfirst
    refine ⟨j :: way, node, key, .child hown (by rwa [hchildren]) ?_ hflaw, hreport⟩
    rw [hchildren]
    exact fun k hk c' hk' => hread (hbefore k hk c' hk')

section

variable (hdepth : depth ≤ maxDepth)

include hdepth

theorem follows_readLeaf (hleaf : isGroup fields = false) :
    Follows depth path (.object fields) ((readLeaf path fields).map .leaf) := by
  have hmeets := @meets_readLeaf fields path
  have hdemands : demands fields = leafDemands fields := by rw [demands, hleaf, if_neg Bool.false_ne_true]
  cases h : readLeaf path fields with
  | ok l =>
    rw [h] at hmeets
    refine IsSound.of_children ?_ ?_
    . rw [flaw?_object hdepth, hdemands, show unmet? (leafDemands fields) = none from hmeets, Option.map_none]
    . intro i c hi
      simp [childrenOf, hleaf] at hi
  | error e =>
    rw [h] at hmeets
    obtain ⟨key, hkey, hreport⟩ := hmeets
    exact follows_unmet hdepth (hdemands ▸ hkey) hreport

theorem follows_readGroup (hgroup : isGroup fields = true)
    (hc : ∀ path c, Follows (depth + 1) path c (readChild path c)) :
    Follows depth path (.object fields) (readGroup readChild path fields) := by
  have hmeets := @meets_readLogic fields path
  have hdemands : demands fields = groupDemands fields := by rw [demands, if_pos hgroup]
  unfold readGroup
  cases hlogic : readLogic path fields with
  | error e =>
    rw [hlogic] at hmeets
    obtain ⟨key, hkey, hreport⟩ := hmeets
    refine follows_unmet hdepth ?_ hreport
    rw [hdemands, groupDemands]
    cases hl : isLogic (fields.get? "logic") with
    | true => simp [hl, unmet?] at hkey
    | false => simpa [hl, unmet?] using hkey
  | ok logic =>
    rw [hlogic] at hmeets
    have hl : isLogic (fields.get? "logic") = true := unmet?_single_none.mp hmeets
    rw [ok_bind]
    dsimp only
    rw [← childKey]
    have hmisfit : ¬HasMisfit (some (childKey fields)) (.object fields) := by
      unfold childKey
      split <;> exact not_hasMisfit (by decide) (by decide) (by decide)
    have hflaw {reason : String} (h : isFilledList (fields.get? (childKey fields)) = false) :
        Follows depth path (.object fields) (fault (path ++ "." ++ childKey fields) reason) := by
      refine follows_unmet hdepth ?_ (reports_fault hmisfit)
      rw [hdemands, groupDemands, hl, h]
      rfl
    cases hitems : fields.get? (childKey fields) with
    | none =>
      simp only [Fields.getD, hitems, Option.getD_none]
      exact hflaw (by rw [hitems]; rfl)
    | some v =>
      simp only [Fields.getD, hitems, Option.getD_some]
      split
      . exact hflaw (by rw [hitems]; rfl)
      . next children hne =>
        have hchildren : childrenOf (.object fields) = children := by
          simp [childrenOf, hgroup, hitems]
        have hown : flaw? depth (.object fields) = none := by
          rw [flaw?_object hdepth, hdemands, groupDemands, hl, hitems]
          cases children with
          | nil => exact absurd rfl hne
          | cons => rfl
        exact follows_readChildren hown hchildren hc
      . next hlist =>
        refine hflaw ?_
        rw [hitems]
        cases v with
        | list children => cases children <;> simp_all
        | _ => rfl

end

end

theorem follows_readWithin {levels depth : Nat} (h : depth + levels = maxDepth + 1) (path : String) (v : Value) :
    Follows depth path v (readWithin levels path v) := by
  induction levels generalizing depth path v with
  | zero =>
    cases v with
    | object fields =>
      refine follows_here ?_
      rw [flaw?, if_pos (by omega)]
    | _ => exact follows_here rfl
  | succ levels ih =>
    cases v with
    | object fields =>
      have hdepth : depth ≤ maxDepth := by omega
      unfold readWithin readNode
      cases hgroup : isGroup fields with
      | true => exact follows_readGroup hdepth hgroup fun path c => ih (by omega) path c
      | false => exact follows_readLeaf hdepth hgroup
    | _ => exact follows_here rfl

theorem follows_read (path : String) (v : Value) : Follows 0 path v (read path v) :=
  follows_readWithin (Nat.zero_add _) path v

theorem unmet?_eq_none {ds : List (String × Bool)} : unmet? ds = none ↔ ∀ d ∈ ds, d.2 = true := by
  simp [unmet?]

theorem flaw?_eq_none {depth : Nat} {v : Value} : flaw? depth v = none ↔
    depth ≤ maxDepth ∧ ∃ fields, v = .object fields ∧ ∀ d ∈ demands fields, d.2 = true := by
  unfold flaw?
  cases v with
  | object fields =>
    dsimp only
    split
    . next h => simp [Nat.not_le.mpr h]
    . next h => simp [Nat.not_lt.mp h, unmet?_eq_none]
  | _ => simp

/--
A value is read as a rule if all its nodes are objects of which every demand is met, none of them too deep.
Otherwise the path of the fault leads from parents to children, and there to the key, of the first flaw.
-/
theorem read_iff_grammar (path : String) (v : Value) :
    ((∃ r, read path v = .ok r) ↔ ∀ way node, nodeAt? way v = some node →
      way.length ≤ maxDepth ∧ ∃ fields, node = .object fields ∧ ∀ d ∈ demands fields, d.2 = true) ∧
    ∀ reason place details, read path v = .error (.refused (.misconfigured reason place details)) →
      ∃ way node key, FirstFlaw 0 v way node key ∧ place = locate path key way := by
  have hfollows := follows_read path v
  have hsound : IsSound 0 v ↔ ∀ way node, nodeAt? way v = some node →
      way.length ≤ maxDepth ∧ ∃ fields, node = .object fields ∧ ∀ d ∈ demands fields, d.2 = true := by
    unfold IsSound
    simp only [Nat.zero_add, flaw?_eq_none]
  rw [← hsound]
  cases h : read path v with
  | ok r =>
    rw [h] at hfollows
    exact ⟨iff_of_true ⟨r, rfl⟩ hfollows, nofun⟩
  | error e =>
    rw [h] at hfollows
    obtain ⟨way, node, key, hfirst, hreport⟩ := hfollows
    refine ⟨iff_of_false (by simp) hfirst.not_isSound, ?_⟩
    rintro reason place details ⟨⟩
    refine ⟨way, node, key, hfirst, ?_⟩
    rcases hreport with ⟨-, hbroken | hbroken⟩ | ⟨-, _, hrefused⟩
    . cases hbroken
    . cases hbroken
    . cases hrefused
      rfl

example : locate "rule" (some "operator") [1, 0] = "rule.children[1].children[0].operator" := by
  decide

end Rule

end StageGate
