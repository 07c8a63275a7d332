import StageGate.Decimal

/-!
This module contains the values that documents are made of: the facts about a lead, the bodies of
requests and the stored forms of rules.
-/

namespace StageGate

inductive Value where
  | null
  | bool (b : Bool)
  | int (n : Int)
  | float (x : Binary64)
  | decimal (x : Decimal)
  | text (s : String)
  | list (items : List Value)
  | object (fields : List (String × Value))
  deriving Inhabited

/-- The members of an object in the order they were given, each key once. -/
abbrev Fields := List (String × Value)

namespace Fields

def get? (fields : Fields) (key : String) : Option Value :=
  fields.lookup key

def has (fields : Fields) (key : String) : Bool :=
  (fields.get? key).isSome

def getD (fields : Fields) (key : String) (fallback : Value) : Value :=
  (fields.get? key).getD fallback

def set (fields : Fields) (key : String) (value : Value) : Fields :=
  match fields with
  | [] => [(key, value)]
  | (k, v) :: rest => if k = key then (key, value) :: rest else (k, v) :: set rest key value

def merge (fields others : Fields) : Fields :=
  others.foldl (fun acc f => set acc f.1 f.2) fields

end Fields

namespace Value

def isTrue : Value → Bool
  | .null => false
  | .bool b => b
  | .int n => n != 0
  | .float x => !x.eq .zero
  | .decimal x => !x.isZero
  | .text s => s != ""
  | .list items => !items.isEmpty
  | .object fields => !fields.isEmpty

def isNull : Value → Bool
  | .null => true
  | _ => false

def orElse (v fallback : Value) : Value :=
  if v.isTrue then v else fallback

def get? (v : Value) (key : String) : Option Value :=
  match v with
  | .object fields => Fields.get? fields key
  | _ => none

def get (v : Value) (key : String) : Value :=
  (v.get? key).getD .null

@[simp]
theorem get_object_cons (k : String) (v : Value) (fields : Fields) (key : String) :
    (object ((k, v) :: fields)).get key = if key = k then v else (object fields).get key := by
  simp only [get, get?, Fields.get?, List.lookup_cons]
  by_cases h : key = k
  . simp [h]
  . simp [h, beq_eq_false_iff_ne.mpr h]

def asInt? : Value → Option Int
  | .int n => some n
  | _ => none

def asText? : Value → Option String
  | .text s => some s
  | _ => none

def ofOption {α : Type} (f : α → Value) : Option α → Value
  | none => .null
  | some a => f a

def ofInt? : Option Int → Value :=
  ofOption .int

def ofText? : Option String → Value :=
  ofOption .text

mutual

def beq : Value → Value → Bool
  | .null, .null => true
  | .bool a, .bool b => a == b
  | .int a, .int b => a == b
  | .float a, .float b => a == b
  | .decimal a, .decimal b => a == b
  | .text a, .text b => a == b
  | .list xs, .list ys => beqItems xs ys
  | .object fs, .object gs => beqFields fs gs
  | _, _ => false

def beqItems : List Value → List Value → Bool
  | [], [] => true
  | x :: xs, y :: ys => beq x y && beqItems xs ys
  | _, _ => false

def beqFields : List (String × Value) → List (String × Value) → Bool
  | [], [] => true
  | (k, v) :: fs, (l, w) :: gs => k == l && beq v w && beqFields fs gs
  | _, _ => false

end

mutual

theorem eq_of_beq : ∀ {v w : Value}, beq v w = true → v = w
  | .null, w, h | .bool _, w, h | .int _, w, h | .float _, w, h | .decimal _, w, h
  | .text _, w, h => by cases w <;> simp_all [beq]
  | .list xs, w, h => by
    cases w <;> simp_all [beq]
    exact eq_of_beqItems h
  | .object fs, w, h => by
    cases w <;> simp_all [beq]
    exact eq_of_beqFields h

theorem eq_of_beqItems : ∀ {xs ys : List Value}, beqItems xs ys = true → xs = ys
  | [], ys, h => by cases ys <;> simp_all [beqItems]
  | x :: xs, [], h => by simp_all [beqItems]
  | x :: xs, y :: ys, h => by
    simp only [beqItems, Bool.and_eq_true] at h
    rw [eq_of_beq h.1, eq_of_beqItems h.2]

theorem eq_of_beqFields : ∀ {fs gs : List (String × Value)}, beqFields fs gs = true → fs = gs
  | [], gs, h => by cases gs <;> simp_all [beqFields]
  | f :: fs, [], h => by simp_all [beqFields]
  | (k, v) :: fs, (l, w) :: gs, h => by
    simp only [beqFields, Bool.and_eq_true, beq_iff_eq] at h
    rw [h.1.1, eq_of_beq h.1.2, eq_of_beqFields h.2]

end

mutual

theorem beq_self : ∀ v : Value, beq v v = true
  | .null | .bool _ | .int _ | .float _ | .decimal _ | .text _ => by simp [beq]
  | .list xs => by simp [beq, beqItems_self xs]
  | .object fs => by simp [beq, beqFields_self fs]

theorem beqItems_self : ∀ xs : List Value, beqItems xs xs = true
  | [] => by simp [beqItems]
  | x :: xs => by simp [beqItems, beq_self x, beqItems_self xs]

theorem beqFields_self : ∀ fs : List (String × Value), beqFields fs fs = true
  | [] => by simp [beqFields]
  | (_, v) :: fs => by simp [beqFields, beq_self v, beqFields_self fs]

end

instance : DecidableEq Value := fun v w =>
  if h : beq v w = true then .isTrue (eq_of_beq h) else .isFalse fun e => h (e ▸ beq_self v)

end Value

end StageGate
