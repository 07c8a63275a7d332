import StageGate.Proofs.Commands

/-!
This module contains that a lead has at most one active entry in a pipeline, whatever the services are
asked for, and that the store never has to stop them from giving it another one.
-/

namespace StageGate

namespace Store

def activeEntriesOf (s : Store) (lead pipeline : Int) : List Entry :=
  s.entries.filter fun e => e.lead = lead && e.pipeline = pipeline && e.isActive

theorem length_activeEntriesOf_le {s : Store} (hs : s.IsSound) (lead pipeline : Int) :
    (s.activeEntriesOf lead pipeline).length ≤ 1 := by
  have hids : ((s.activeEntriesOf lead pipeline).map (·.id)).Pairwise (· < ·) :=
    hs.entryIds.sublist (List.filter_sublist.map _)
  have hmem : ∀ e ∈ s.activeEntriesOf lead pipeline,
      e ∈ s.entries ∧ e.lead = lead ∧ e.pipeline = pipeline ∧ e.isActive := by
    simp [activeEntriesOf, and_assoc]
  apply length_le_one hids
  intro e he x hx
  obtain ⟨he, hel, hep, hea⟩ := hmem e he
  obtain ⟨hx, hxl, hxp, hxa⟩ := hmem x hx
  exact hs.single e he x hx hea hxa (hel.trans hxl.symm) (hep.trans hxp.symm)

end Store

namespace Service

/--
A lead never has two active entries in a pipeline, and no turn fails because it would have: the checks of
the services come before the constraint of the store.
-/
theorem reached_single_entry (ts : List Turn) :
    (∀ lead pipeline, ((reached ts).store.activeEntriesOf lead pipeline).length ≤ 1) ∧
      ∀ t e, (reached ts).answer t = .error e → e.constraint? ≠ some Store.collision := by
  have hs := isSound_reached ts
  constructor
  . exact Store.length_activeEntriesOf_le hs
  . intro t e he
    exact (store_of_fault hs he).2

end Service

end StageGate
