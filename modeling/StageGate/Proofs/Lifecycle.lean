import StageGate.Proofs.Commands

/-!
This module contains the life of an entry: it is never removed, what it was opened with stays, and once it
is closed nothing about it changes.
-/

namespace StageGate

structure Entry.Becomes (e e' : Entry) : Prop where
  id : e'.id = e.id
  lead : e'.lead = e.lead
  pipeline : e'.pipeline = e.pipeline
  enrolledAt : e'.enrolledAt = e.enrolledAt
  origin : e'.transferredFrom = e.transferredFrom
  status : e'.status = e.status ∨ e.status = .active ∧ (e'.status = .archived ∨ e'.status = .completed)
  closed : e.status ≠ .active → e' = e

namespace Entry.Becomes

variable {e e' e'' : Entry}

theorem refl (e : Entry) : e.Becomes e :=
  ⟨rfl, rfl, rfl, rfl, rfl, .inl rfl, fun _ => rfl⟩

theorem trans (h : e.Becomes e') (h' : e'.Becomes e'') : e.Becomes e'' where
  id := h'.id.trans h.id
  lead := h'.lead.trans h.lead
  pipeline := h'.pipeline.trans h.pipeline
  enrolledAt := h'.enrolledAt.trans h.enrolledAt
  origin := h'.origin.trans h.origin
  status := by
    -- What is closed at first stays so; what is not takes its status from the second part.
    by_cases ha : e.status = .active
    . rcases h'.status with hs | ⟨-, hs⟩
      . rw [hs]
        exact h.status
      . exact .inr ⟨ha, hs⟩
    . have hsame := h.closed ha
      subst hsame
      exact h'.status
  closed := by
    intro ha
    have hsame := h.closed ha
    subst hsame
    exact h'.closed ha

/-! ## What operations do to an active entry -/

variable (ha : e.isActive)

include ha

theorem remember (b : Bucket) : e.Becomes (e.remember b) :=
  ⟨rfl, rfl, rfl, rfl, rfl, .inl rfl, fun h => absurd (Entry.isActive_iff.mp ha) h⟩

theorem archive (kept : Option String) (now : Instant) : e.Becomes (e.archive kept now) where
  id := rfl
  lead := rfl
  pipeline := rfl
  enrolledAt := rfl
  origin := rfl
  status := .inr ⟨Entry.isActive_iff.mp ha, .inl rfl⟩
  closed h := absurd (Entry.isActive_iff.mp ha) h

theorem of_isPlaced {c : Call} {target : Stage} (h : Advancement.IsPlaced c e target e') : e.Becomes e' where
  id := h.id
  lead := h.lead
  pipeline := h.pipeline
  enrolledAt := h.enrolledAt
  origin := h.origin
  status := by
    rcases h.status with ⟨hs, -⟩ | ⟨hs, -⟩
    . exact .inl hs
    . exact .inr ⟨Entry.isActive_iff.mp ha, .inr hs⟩
  closed hs := absurd (Entry.isActive_iff.mp ha) hs

end Entry.Becomes

namespace Store

def Continues (s s' : Store) : Prop :=
  ∀ e ∈ s.entries, ∃ e' ∈ s'.entries, e.Becomes e'

namespace Continues

variable {s s' s'' : Store}

theorem refl (s : Store) : s.Continues s :=
  fun e he => ⟨e, he, .refl e⟩

theorem trans (h : s.Continues s') (h' : s'.Continues s'') : s.Continues s'' := by
  intro e he
  obtain ⟨e', he', hbecomes⟩ := h e he
  obtain ⟨e'', he'', hbecomes'⟩ := h' e' he'
  exact ⟨e'', he'', hbecomes.trans hbecomes'⟩

theorem congr (h : s'.entries = s.entries) : s.Continues s' := by
  intro e he
  exact ⟨e, by rwa [h], .refl e⟩

theorem addEntry (s : Store) (e : Entry) : s.Continues (s.addEntry e) := by
  intro x hx
  exact ⟨x, by simp [hx], .refl x⟩

theorem putEntry {e new : Entry} (hs : s.IsSound) (he : e ∈ s.entries) (h : e.Becomes new) :
    s.Continues (s.putEntry new) := by
  intro x hx
  by_cases hid : x.id = new.id
  . have hsame := eq_of_id_eq hs.entryIds hx he (hid.trans h.id)
    subst hsame
    exact ⟨new, mem_putEntry_self hx hid, h⟩
  . exact ⟨x, mem_putEntry_of_ne hx hid, .refl x⟩

theorem step {f : Effect} (hs : s.IsSound) (h : s.Step f s') : s.Continues s' := by
  cases h with
  | aside _ entries _ => exact congr entries
  | addStage => exact congr rfl
  | note => exact congr rfl
  | refresh b held => exact putEntry hs held.mem (.remember held.isActive b)
  | enroll => exact addEntry s _
  | move held _ _ placed =>
    exact putEntry hs held.mem (.of_isPlaced held.isActive (Advancement.isPlaced_of_placed placed))
  | archive held => exact putEntry hs held.mem (.archive held.isActive _ _)
  | transfer held =>
    exact (putEntry hs held.mem (.archive held.isActive _ _)).trans (addEntry _ _)

end Continues

theorem Steps.continues {f : Effect} {n : Nat} {s s' : Store} (hs : s.IsSound) (h : s.Steps f n s') :
    s.Continues s' := by
  induction h with
  | refl => exact .refl s
  | tail steps step ih => exact ih.trans (.step (hs.steps steps) step)

end Store

namespace Service

/--
An entry that is there at some point of a run is found by its id at every later point, as what it may have
become; and at every point the columns of entries agree with their status, and their stages with their
pipelines.
-/
theorem reached_lifecycle (ts us : List Turn) :
    (∀ e ∈ (reached ts).store.entries,
      ∃ e', (reached (ts ++ us)).store.entryRow? e.id = some e' ∧ e.Becomes e') ∧
      ∀ e ∈ (reached ts).store.entries, e.IsCoherent ∧ (reached ts).store.Houses e := by
  have hs := isSound_reached ts
  constructor
  . intro e he
    have hcontinues : (reached ts).store.Continues ((reached ts).run us).store :=
      run_induction Store.Continues .refl .trans .step hs us
    obtain ⟨e', he', hbecomes⟩ := hcontinues e he
    rw [← reached_append] at he'
    refine ⟨e', ?_, hbecomes⟩
    unfold Store.entryRow?
    rw [Store.find?_id_eq_some (isSound_reached (ts ++ us)).entryIds]
    exact ⟨he', hbecomes.id⟩
  . intro e he
    exact ⟨hs.coherent e he, hs.housed e he⟩

end Service

end StageGate
