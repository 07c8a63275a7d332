/-!
This module contains the listing of rows in an order. Rows that may stand before each other stay in the
order in which they are given.
-/

namespace StageGate.Listing

def insert {α : Type} (before : α → α → Bool) (a : α) : List α → List α
  | [] => [a]
  | b :: bs => if before a b then a :: b :: bs else b :: insert before a bs

def inOrder {α : Type} (before : α → α → Bool) (as : List α) : List α :=
  as.foldr (insert before) []

section

variable {α : Type} {before : α → α → Bool}

@[simp]
theorem mem_insert {a x : α} {as : List α} : x ∈ insert before a as ↔ x = a ∨ x ∈ as := by
  induction as with
  | nil => simp [insert]
  | cons b bs ih =>
    simp only [insert]
    split
    . simp
    . simp only [List.mem_cons, ih]
      exact or_left_comm

@[simp]
theorem mem_inOrder {x : α} {as : List α} : x ∈ inOrder before as ↔ x ∈ as := by
  induction as with
  | nil => simp [inOrder]
  | cons a as ih =>
    have : inOrder before (a :: as) = insert before a (inOrder before as) := rfl
    simp [this, ih]

end

end StageGate.Listing
