import Mathlib.Data.List.Induction
import StageGate.Proofs.Commands

/-!
This module contains how full stages get. A move asks for room, but opening an entry does not, so limits
are kept exactly as long as there happens to be room for the entries that are opened.
-/

namespace StageGate

namespace Store

def IsWithinLimits (s : Store) : Prop :=
  ∀ stage ∈ s.stages, ∀ n : Int, stage.limit = .int n → s.occupancy stage.id ≤ n

/-- How many entries were opened in a stage between two stores; they are added behind the others. -/
def opened (s s' : Store) (stage : Int) : Nat :=
  (s'.entries.drop s.entries.length).countP (·.stage = stage)

def HadRoom (s s' : Store) : Prop :=
  ∀ stage ∈ s.stages, ∀ n : Int, stage.limit = .int n → s.occupancy stage.id + s.opened s' stage.id ≤ n

theorem opened_of_length_eq {s s' : Store} (h : s'.entries.length = s.entries.length) (stage : Int) :
    s.opened s' stage = 0 := by
  unfold opened
  rw [← h, List.drop_length]
  rfl

@[simp]
theorem opened_addAudit (s s' : Store) (r : AuditRow) (stage : Int) :
    s.opened (s'.addAudit r) stage = s.opened s' stage :=
  rfl

theorem opened_of_concat {s s' : Store} {es : List Entry} {e : Entry} (h : s'.entries = es ++ [e])
    (hlength : es.length = s.entries.length) (stage : Int) :
    s.opened s' stage = if e.stage = stage then 1 else 0 := by
  unfold opened
  rw [h, ← hlength, List.drop_left, List.countP_singleton]
  simp

/-! ## Steps -/

theorem Step.length_entries {f : Effect} {s s' : Store} (h : Step f s s') (hf : f ≠ .enroll)
    (hf' : f ≠ .transfer) : s'.entries.length = s.entries.length := by
  cases h with
  | aside _ entries _ => rw [entries]
  | addStage => rfl
  | note => rfl
  | refresh => simp
  | enroll => exact absurd rfl hf
  | move => simp
  | archive => simp
  | transfer => exact absurd rfl hf'

theorem Steps.length_entries {f : Effect} {n : Nat} {s s' : Store} (h : Steps f s n s') (hf : f ≠ .enroll)
    (hf' : f ≠ .transfer) : s'.entries.length = s.entries.length := by
  induction h with
  | refl => rfl
  | tail _ step ih => rw [step.length_entries hf hf', ih]

theorem Steps.opened_eq_zero {f : Effect} {n : Nat} {s s' : Store} (h : Steps f s n s') (hf : f ≠ .enroll)
    (hf' : f ≠ .transfer) (stage : Int) : s.opened s' stage = 0 :=
  opened_of_length_eq (h.length_entries hf hf') stage

theorem Steps.eq_or_step {f : Effect} {n : Nat} {s s' : Store} (h : Steps f s n s') (hf : f ≠ .quiet)
    (hn : n ≤ 1) : s' = s ∨ Step f s s' := by
  -- Every step but a quiet one writes a row, so a second step would be a second row.
  have hrows : f.rows = 1 := by cases f <;> first | rfl | exact absurd rfl hf
  cases h with
  | refl => exact .inl rfl
  | tail steps step =>
    cases steps with
    | refl => exact .inr step
    | tail => omega

theorem Step.occupancy_quiet {s s' : Store} (hs : s.IsSound) (h : Step .quiet s s') (stage : Int) :
    s'.occupancy stage = s.occupancy stage := by
  cases h with
  | aside _ entries _ =>
    unfold occupancy
    rw [entries]
  | addStage => rfl
  | note => rfl
  | @refresh _ e b held =>
    have hid : (e.remember b).id = e.id := rfl
    have := occupancy_putEntry hs.entryIds held.mem hid stage
    have hactive : (e.remember b).isActive = e.isActive := rfl
    have hstage : (e.remember b).stage = e.stage := rfl
    rw [hactive, hstage] at this
    omega

theorem Steps.occupancy_quiet {n : Nat} {s s' : Store} (hs : s.IsSound) (h : Steps .quiet s n s')
    (stage : Int) : s'.occupancy stage = s.occupancy stage := by
  induction h with
  | refl => rfl
  | tail steps step ih => rw [step.occupancy_quiet (hs.steps steps), ih]

theorem Steps.entries_enroll {n : Nat} {s s' : Store} (h : Steps .enroll s n s') :
    ∃ es, s'.entries = s.entries ++ es ∧ ∀ e ∈ es, e.isActive := by
  induction h with
  | refl => exact ⟨[], by simp, by simp⟩
  | tail _ step ih =>
    obtain ⟨es, hes, hactive⟩ := ih
    cases step with
    | @enroll _ c e first opening =>
      refine ⟨es ++ [e], by simp [hes], ?_⟩
      intro x hx
      rw [List.mem_append, List.mem_singleton] at hx
      rcases hx with hx | rfl
      . exact hactive x hx
      . exact Entry.isActive_iff.mpr opening.status

theorem Steps.occupancy_enroll {n : Nat} {s s' : Store} (h : Steps .enroll s n s') (stage : Int) :
    s'.occupancy stage = s.occupancy stage + s.opened s' stage := by
  obtain ⟨es, hes, hactive⟩ := h.entries_enroll
  unfold occupancy opened
  rw [hes, List.countP_append, List.drop_left]
  congr 1
  apply List.countP_congr
  intro e he
  simp [hactive e he]

theorem Step.occupancy_archive {s s' : Store} (hs : s.IsSound) (h : Step .archive s s') (stage : Int) :
    s'.occupancy stage ≤ s.occupancy stage := by
  cases h with
  | @archive _ c e _ _ kept held =>
    have hid : (e.archive kept c.now).id = e.id := rfl
    have := occupancy_putEntry hs.entryIds held.mem hid stage
    have hactive : (e.archive kept c.now).isActive = false := rfl
    rw [hactive, Bool.and_false] at this
    rw [occupancy_addAudit]
    simp only [Bool.false_eq_true, ↓reduceIte] at this
    omega

theorem Step.occupancy_move {s s' : Store} (hs : s.IsSound) (h : Step .move s s') {stage : Stage}
    (hstage : stage ∈ s.stages) {n : Int} (hlimit : stage.limit = .int n)
    (hn : s.occupancy stage.id ≤ n) : s'.occupancy stage.id ≤ n := by
  cases h with
  | @move _ c e new _ _ current target held here resolved placed =>
    have ht := Advancement.isTarget_of_resolveTarget resolved
    have hp := Advancement.isPlaced_of_placed placed
    have hcount := occupancy_putEntry hs.entryIds held.mem hp.id stage.id
    rw [hp.stage] at hcount
    rw [occupancy_addAudit]
    -- A stage that the entry moves to had room; any other one holds at most what it held.
    by_cases hsame : target.id = stage.id
    . have htarget := eq_of_id_eq hs.stageIds ht.mem hstage hsame
      have hroom : s.occupancy stage.id < n := by
        rw [← htarget] at hlimit ⊢
        exact ht.occupancy_lt hlimit (hs.limits target ht.mem)
      split at hcount <;> split at hcount <;> omega
    . simp only [hsame, decide_false, Bool.false_and, Bool.false_eq_true, ↓reduceIte] at hcount
      omega

theorem Step.occupancy_transfer {s s' : Store} (hs : s.IsSound) (h : Step .transfer s s') (stage : Int) :
    s'.occupancy stage = s.occupancy stage + s.opened s' stage ∨
      s.opened s' stage = 0 ∧ s'.occupancy stage ≤ s.occupancy stage := by
  cases h with
  | @transfer _ c e x _ first _ _ kept held _ _ _ _ apart opening =>
    have hopened := opened_of_concat (addEntry_entries (s.putEntry (e.archive kept c.now)) x)
      (length_putEntry s (e.archive kept c.now)) stage
    have hid : (e.archive kept c.now).id = e.id := rfl
    have hclosed := occupancy_putEntry hs.entryIds held.mem hid stage
    have hinactive : (e.archive kept c.now).isActive = false := rfl
    simp only [hinactive, Bool.and_false, Bool.false_eq_true, ↓reduceIte, held.isActive, Bool.and_true,
      decide_eq_true_eq] at hclosed
    have hcount := occupancy_addEntry (s.putEntry (e.archive kept c.now)) x stage
    simp only [Entry.isActive_iff.mpr opening.status, Bool.and_true, decide_eq_true_eq] at hcount
    -- The two stages belong to two pipelines, so no stage loses one entry and gains the other.
    have hother : x.stage ≠ e.stage := by
      intro hsame
      obtain ⟨hfirst, hpipeline⟩ := mem_of_head?_stagesOf opening.head
      obtain ⟨here, hhere, hstage, hin⟩ := hs.housed e held.mem
      rw [opening.stage] at hsame
      rw [← eq_of_id_eq hs.stageIds hfirst hhere (hsame.trans hstage.symm), hpipeline] at hin
      exact apart hin
    rw [occupancy_addAudit, opened_addAudit]
    by_cases hx : x.stage = stage
    . left
      have he : e.stage ≠ stage := by
        rw [← hx]
        exact hother.symm
      simp only [hx, ↓reduceIte] at hopened hcount
      simp only [he, ↓reduceIte] at hclosed
      omega
    . right
      simp only [hx, ↓reduceIte] at hopened hcount
      exact ⟨hopened, by omega⟩

/-! ## Turns -/

theorem Steps.occupancy {f : Effect} {k : Nat} {s s' : Store} (hs : s.IsSound) (h : Steps f s k s')
    (hk : f ≠ .enroll → k ≤ 1) {stage : Stage} (hstage : stage ∈ s.stages) {n : Int}
    (hlimit : stage.limit = .int n) :
    s'.occupancy stage.id = s.occupancy stage.id + s.opened s' stage.id ∨
      s.opened s' stage.id = 0 ∧ (s.occupancy stage.id ≤ n → s'.occupancy stage.id ≤ n) := by
  cases f with
  | quiet =>
    right
    rw [h.occupancy_quiet hs]
    exact ⟨h.opened_eq_zero (by simp) (by simp) _, id⟩
  | enroll => exact .inl (h.occupancy_enroll stage.id)
  | move =>
    right
    refine ⟨h.opened_eq_zero (by simp) (by simp) _, fun hn => ?_⟩
    rcases h.eq_or_step (by simp) (hk (by simp)) with rfl | hstep
    . exact hn
    . exact hstep.occupancy_move hs hstage hlimit hn
  | archive =>
    right
    refine ⟨h.opened_eq_zero (by simp) (by simp) _, fun hn => ?_⟩
    rcases h.eq_or_step (by simp) (hk (by simp)) with rfl | hstep
    . exact hn
    . have hle := hstep.occupancy_archive hs stage.id
      omega
  | transfer =>
    rcases h.eq_or_step (by simp) (hk (by simp)) with rfl | hstep
    . exact .inr ⟨opened_of_length_eq rfl _, id⟩
    . rcases hstep.occupancy_transfer hs stage.id with hcount | ⟨hnone, hle⟩
      . exact .inl hcount
      . refine .inr ⟨hnone, fun hn => ?_⟩
        omega

theorem mem_stages_of_occupancy {s s' : Store} (hs : s.IsSound) (hs' : s'.IsSound)
    (hstages : s.stages ⊆ s'.stages) {stage : Stage} (hstage : stage ∈ s'.stages)
    (h : 0 < s.occupancy stage.id) : stage ∈ s.stages := by
  unfold occupancy at h
  rw [List.countP_pos_iff] at h
  obtain ⟨e, he, hin⟩ := h
  obtain ⟨here, hhere, hid, -⟩ := hs.housed e he
  simp only [Bool.and_eq_true, decide_eq_true_eq] at hin
  rwa [← eq_of_id_eq hs'.stageIds (hstages hhere) hstage (hid.trans hin.1)]

theorem Steps.isWithinLimits_iff {f : Effect} {k : Nat} {s s' : Store} (hs : s.IsSound)
    (h : Steps f s k s') (hk : f ≠ .enroll → k ≤ 1) (hwithin : s.IsWithinLimits) :
    s'.IsWithinLimits ↔ s.HadRoom s' := by
  have hs' := hs.steps h
  constructor
  . intro hwithin' stage hstage n hlimit
    have hbefore := hwithin stage hstage n hlimit
    have hafter := hwithin' stage (h.stages_subset hstage) n hlimit
    rcases h.occupancy hs hk hstage hlimit with hcount | ⟨hnone, -⟩ <;> omega
  . intro hroom stage hstage n hlimit
    by_cases hthere : stage ∈ s.stages
    . have hbefore := hwithin stage hthere n hlimit
      have hroom := hroom stage hthere n hlimit
      rcases h.occupancy hs hk hthere hlimit with hcount | ⟨-, hkept⟩
      . omega
      . exact hkept hbefore
    -- Limits are positive, and a stage that is new is empty.
    . have hpos := hs'.limits stage hstage
      rw [hlimit] at hpos
      have hpos : 1 ≤ n := by simpa [Value.isLimit] using hpos
      have hquiet : f = .quiet := by
        by_contra hf
        rw [h.stages_eq hf] at hstage
        exact hthere hstage
      subst hquiet
      have hempty : ¬0 < s.occupancy stage.id := fun hoccupied =>
        hthere (mem_stages_of_occupancy hs hs' h.stages_subset hstage hoccupied)
      rw [h.occupancy_quiet hs]
      omega

theorem isWithinLimits_empty : empty.IsWithinLimits := by
  simp [IsWithinLimits, empty]

end Store

namespace Service

theorem isWithinLimits_after_iff {s : Service} (hs : s.store.IsSound) (t : Turn)
    (hwithin : s.store.IsWithinLimits) :
    (s.after t).store.IsWithinLimits ↔ s.store.HadRoom (s.after t).store := by
  obtain ⟨k, hsteps, hk⟩ := exists_steps hs t
  exact hsteps.isWithinLimits_iff hs hk hwithin

theorem opened_after {s : Service} (hs : s.store.IsSound) (t : Turn) {stage : Int}
    (h : 0 < s.store.opened (s.after t).store stage) :
    t.command.effect = .enroll ∨ t.command.effect = .transfer := by
  obtain ⟨k, hsteps, -⟩ := exists_steps hs t
  by_contra hf
  rw [not_or] at hf
  rw [hsteps.opened_eq_zero hf.1 hf.2] at h
  omega

/--
The limits are kept in every store of a run exactly if every turn had room for the entries that it opened,
and only enrollments and transfers open any.
-/
theorem reached_within_limits_iff (ts : List Turn) :
    ((∀ us, us <+: ts → (reached us).store.IsWithinLimits) ↔
      ∀ us t, us ++ [t] <+: ts → (reached us).store.HadRoom (reached (us ++ [t])).store) ∧
      ∀ us t stage, 0 < (reached us).store.opened (reached (us ++ [t])).store stage →
        t.command.effect = .enroll ∨ t.command.effect = .transfer := by
  constructor
  . constructor
    . intro hwithin us t hprefix
      have hbefore := hwithin us ((List.prefix_append us [t]).trans hprefix)
      have hafter := hwithin (us ++ [t]) hprefix
      rw [reached_concat] at hafter ⊢
      exact (isWithinLimits_after_iff (isSound_reached us) t hbefore).mp hafter
    . intro hroom us
      induction us using List.reverseRecOn with
      | nil => exact fun _ => Store.isWithinLimits_empty
      | append_singleton us t ih =>
        intro hprefix
        have hbefore := ih ((List.prefix_append us [t]).trans hprefix)
        have hroom := hroom us t hprefix
        rw [reached_concat] at hroom ⊢
        exact (isWithinLimits_after_iff (isSound_reached us) t hbefore).mpr hroom
  . intro us t stage h
    rw [reached_concat] at h
    exact opened_after (isSound_reached us) t h

def crowding : List Turn :=
  -- Two leads, and a first stage that has room for one of them.
  let env : Environment := ⟨⟨63908038800000000⟩, .int 1, .int 0⟩
  let caller : Caller := ⟨.text "system", none, .null⟩
  let stages : Value := .list [.object [("name", .text "New"), ("wip_limit", .int 1)],
    .object [("name", .text "Won")]]
  [⟨env, .createLead [("name", .text "Ada")], rfl⟩,
    ⟨env, .createLead [("name", .text "Bob")], rfl⟩,
    ⟨env, .createPipeline (.text "system") (.object [("name", .text "Sales"), ("stages", stages)]), rfl⟩,
    ⟨env, .enroll caller (.int 1) (.int 1) .null, rfl⟩,
    ⟨env, .enroll caller (.int 2) (.int 1) .null, rfl⟩]

theorem reached_beyond_limit : ¬∀ ts : List Turn, (reached ts).store.IsWithinLimits := by
  intro h
  have hcrowded : ∃ stage ∈ (reached crowding).store.stages,
      stage.limit = .int 1 ∧ (1 : Int) < (reached crowding).store.occupancy stage.id := by
    decide +kernel
  obtain ⟨stage, hstage, hlimit, hfull⟩ := hcrowded
  have := h crowding stage hstage 1 hlimit
  omega

end Service

end StageGate
