/-!
This module contains the parts of a text: those between separators, and any that occur in it.
-/

namespace StageGate.Text

def occursIn (part : List Char) : List Char → Bool
  | [] => part.isEmpty
  | c :: cs => part.isPrefixOf (c :: cs) || occursIn part cs

def split (separator : Char) : List Char → List (List Char)
  | [] => [[]]
  | c :: cs =>
    if c = separator then [] :: split separator cs
    else
      match split separator cs with
      | [] => [[c]]
      | part :: parts => (c :: part) :: parts

theorem length_split (separator : Char) (cs : List Char) :
    (split separator cs).length = cs.count separator + 1 := by
  induction cs with
  | nil => rfl
  | cons c cs ih =>
    by_cases h : c = separator
    . simp [split, h, ih]
    . cases hs : split separator cs with
      | nil => simp [hs] at ih
      | cons part parts => simp_all [split]

theorem exists_split_of_mem {separator : Char} {cs : List Char} (h : separator ∈ cs) :
    ∃ part next rest, split separator cs = part :: next :: rest := by
  have hlength := length_split separator cs
  have hcount := List.count_pos_iff.mpr h
  match hs : split separator cs with
  | [] => simp [hs] at hlength
  | [part] =>
    rw [hs, List.length_singleton] at hlength
    omega
  | part :: next :: rest => exact ⟨part, next, rest, rfl⟩

theorem split_append {separator : Char} {part : List Char} (h : separator ∉ part) (cs : List Char) :
    split separator (part ++ separator :: cs) = part :: split separator cs := by
  induction part with
  | nil => simp [split]
  | cons c part ih =>
    rw [List.mem_cons, not_or] at h
    rw [List.cons_append, split, if_neg (Ne.symm h.1), ih h.2]

end StageGate.Text
