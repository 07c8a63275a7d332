import StageGate.Proofs.Configured
import StageGate.Proofs.Gate

/-!
This module contains that the health of every active entry can be told at every time: whoever wrote the entry has
found the day when it is due in the calendar, and neither that day nor the deadline of a stage is written again.
-/

namespace StageGate

/-! ## Days when something is due -/

namespace Instant

/-- Whether the day that is so many days after an instant is in the calendar. -/
def Reaches (t : Instant) (days : Value) : Prop :=
  ∃ due, t.addDays days = .ok due

theorem addDays_int (t : Instant) (n : Int) : t.addDays (.int n) =
    if (⟨t.micros + n * microsPerDay⟩ : Instant).InCalendar then .ok ⟨t.micros + n * microsPerDay⟩
    else .error (.broken .tooLarge) := by
  have hmicros : microsOfDays (.int n) = .ok (n * microsPerDay) := rfl
  unfold addDays
  rw [hmicros]
  by_cases h : (⟨t.micros + n * microsPerDay⟩ : Instant).InCalendar
  . have hadd : t.add? (n * microsPerDay) = some ⟨t.micros + n * microsPerDay⟩ := if_pos h
    simp only [bind, Except.bind, hadd, if_pos h]
    rfl
  . have hadd : t.add? (n * microsPerDay) = none := if_neg h
    simp only [bind, Except.bind, hadd, if_neg h]
    rfl

theorem reaches_int {t : Instant} {n : Int} :
    t.Reaches (.int n) ↔ (⟨t.micros + n * microsPerDay⟩ : Instant).InCalendar := by
  unfold Reaches
  rw [addDays_int]
  split <;> simp_all

theorem reaches_of_health {entered now : Instant} {deadline window : Value} {health : Health}
    (h : Health.of entered now deadline window = .ok health) : entered.Reaches deadline := by
  simp only [Health.of, bind_eq_ok] at h
  obtain ⟨_, -, due, hdue, -⟩ := h
  exact ⟨due, hdue⟩

end Instant

namespace Health

variable {entered : Instant} {deadline window : Value}

/-- Nothing but a day that is not in the calendar keeps the health of a stay from being told. -/
theorem of_eq_error {e : Fault} {now : Instant} (hd : deadline.isDeadline) (hw : window.isNumber)
    (h : of entered now deadline window = .error e) : e = .broken .tooLarge ∧ ¬entered.Reaches deadline := by
  have hbeyond : ¬entered.Reaches deadline := by
    rintro ⟨due, hdue⟩
    obtain ⟨health, hhealth⟩ := exists_of hd hw hdue now
    rw [hhealth] at h
    cases h
  refine ⟨?_, hbeyond⟩
  cases deadline with
  | int n =>
    obtain ⟨standing, hstanding⟩ := Standing.exists_of hd hw (entered.wholeDays now)
    rw [Instant.reaches_int] at hbeyond
    simp only [of, hstanding, Instant.addDays_int, if_neg hbeyond, bind, Except.bind, Except.error.injEq] at h
    exact h.symm
  | _ => simp [Value.isDeadline] at hd

theorem exists_of_iff (hd : deadline.isDeadline) (hw : window.isNumber) (now : Instant) :
    (∃ health, of entered now deadline window = .ok health) ↔ entered.Reaches deadline := by
  constructor
  . rintro ⟨health, hhealth⟩
    exact Instant.reaches_of_health hhealth
  . rintro ⟨due, hdue⟩
    exact exists_of hd hw hdue now

end Health

/-! ## Entries that are due in the calendar -/

namespace Store

def IsDue (s : Store) (e : Entry) : Prop :=
  ∃ stage ∈ s.stages, stage.id = e.stage ∧ e.enteredAt.Reaches stage.deadline

def IsTimely (s : Store) : Prop :=
  ∀ e ∈ s.entries, e.isActive → s.IsDue e

variable {s s' : Store} {e : Entry}

theorem isDue_of_opening {c : Call} {first : Stage} (h : Opening c s e first) : s.IsDue e := by
  obtain ⟨health, hhealth, -⟩ := h.health
  refine ⟨first, (mem_of_head?_stagesOf h.head).1, h.stage.symm, ?_⟩
  rw [h.enteredAt]
  exact Instant.reaches_of_health hhealth

theorem isDue_of_healthOf {window : Value} {now : Instant} {health : Health}
    (h : s.healthOf window now e = .ok health) : s.IsDue e := by
  rw [healthOf, bind_eq_ok] at h
  obtain ⟨stage, hstage, hhealth⟩ := h
  rw [follow_eq_ok] at hstage
  exact ⟨stage, List.mem_of_find?_eq_some hstage, by simpa using List.find?_some hstage,
    Instant.reaches_of_health hhealth⟩

theorem isDue_of_placed {c : Call} {target : Stage} {note : Value} {new : Entry}
    (h : Advancement.placed c c.now e target note s = .ok new) (hactive : new.isActive) : s.IsDue new := by
  rw [Advancement.placed_universal] at h
  rw [bind_eq_ok] at h
  obtain ⟨kept, -, h⟩ := h
  split at h
  . cases h
    cases hactive
  . rw [bind_eq_ok] at h
    obtain ⟨health, hhealth, h⟩ := h
    cases h
    exact isDue_of_healthOf hhealth

namespace IsTimely

theorem of_subset (h : s.IsTimely) (hstages : s.stages ⊆ s'.stages) (hentries : s'.entries = s.entries) :
    s'.IsTimely := by
  intro e he hactive
  rw [hentries] at he
  obtain ⟨stage, hstage, hdue⟩ := h e he hactive
  exact ⟨stage, hstages hstage, hdue⟩

theorem putEntry (h : s.IsTimely) {new : Entry} (hnew : new.isActive → s.IsDue new) : (s.putEntry new).IsTimely := by
  intro x hx hactive
  rcases mem_putEntry hx with rfl | ⟨hx, -⟩
  . exact hnew hactive
  . exact h x hx hactive

theorem addEntry (h : s.IsTimely) (he : s.IsDue e) : (s.addEntry e).IsTimely := by
  intro x hx hactive
  rw [addEntry_entries, List.mem_append, List.mem_singleton] at hx
  rcases hx with hx | rfl
  . exact h x hx hactive
  . exact he

theorem archive (h : s.IsTimely) (e : Entry) (kept : Option String) (now : Instant) :
    (s.putEntry (e.archive kept now)).IsTimely := by
  apply h.putEntry
  intro hactive
  cases hactive

theorem step {f : Effect} (h : s.IsTimely) (hstep : Step f s s') : s'.IsTimely := by
  cases hstep with
  | aside stages entries => exact h.of_subset (by rw [stages]; exact fun _ h => h) entries
  | addStage => exact h.of_subset (List.subset_append_left ..) rfl
  | note => exact h
  | @refresh _ e b held =>
    have hdue : s.IsDue e := h e held.mem held.isActive
    exact h.putEntry fun _ => hdue
  | enroll opening => exact h.addEntry (isDue_of_opening opening)
  | move _ _ _ placed => exact h.putEntry (isDue_of_placed placed)
  | archive => exact h.archive _ _ _
  | transfer _ _ _ _ _ _ opening => exact (h.archive _ _ _).addEntry (isDue_of_opening opening)

theorem steps {f : Effect} {n : Nat} (h : s.IsTimely) (hsteps : Steps f s n s') : s'.IsTimely := by
  induction hsteps with
  | refl => exact h
  | tail _ hstep ih => exact ih.step hstep

/-! ## What can be told -/

variable {window : Value}

theorem exists_health (hs : s.IsSound) (hk : s.IsConsistent) (h : s.IsTimely) (he : e ∈ s.entries)
    (hactive : e.isActive) (hw : window.isNumber) (now : Instant) : ∃ stage health,
    s.stage? e.stage = some stage ∧ Health.of e.enteredAt now stage.deadline window = .ok health := by
  obtain ⟨stage, hstage, hid, due, hdue⟩ := h e he hactive
  obtain ⟨health, hhealth⟩ := Health.exists_of (hk.deadlines stage hstage) hw hdue now
  exact ⟨stage, health, hs.stage?_eq_some.mpr ⟨hstage, hid⟩, hhealth⟩

theorem exists_healthOf (hs : s.IsSound) (hk : s.IsConsistent) (h : s.IsTimely) (he : e ∈ s.entries)
    (hactive : e.isActive) (hw : window.isNumber) (now : Instant) :
    ∃ health, s.healthOf window now e = .ok health := by
  obtain ⟨stage, health, hstage, hhealth⟩ := h.exists_health hs hk he hactive hw now
  refine ⟨health, ?_⟩
  rw [healthOf, hstage]
  exact hhealth

theorem exists_view (hs : s.IsSound) (hk : s.IsConsistent) (h : s.IsTimely) (he : e ∈ s.entries)
    (hw : window.isNumber) (now : Instant) : ∃ v, s.view window now e = .ok v :=
  Store.exists_view fun hactive => h.exists_health hs hk he hactive hw now

end IsTimely

end Store

/-! ## What is always so of a service -/

namespace Service

/-- What is known of the store of a service and of what it has cached, whatever locks are held. -/
structure IsWell (s : Service) : Prop where
  sound : s.store.IsSound
  consistent : s.store.IsConsistent
  counted : s.store.IsCounted
  loadable : s.store.HasLoadable
  timely : s.store.IsTimely
  faithful : s.IsFaithful

namespace IsWell

variable {s : Service}

theorem trusty (h : s.IsWell) : s.IsTrusty :=
  ⟨h.faithful, h.consistent.documents⟩

theorem locked (h : s.IsWell) (locks : Registry) : { s with locks }.IsWell :=
  ⟨h.sound, h.consistent, h.counted, h.loadable, h.timely, h.faithful⟩

theorem after (h : s.IsWell) (t : Turn) : (s.after t).IsWell := by
  obtain ⟨n, hsteps, -⟩ := exists_steps h.sound t
  constructor
  . exact h.sound.steps hsteps
  . exact h.consistent.steps h.sound hsteps
  . rcases writes_of_after h.sound t with hsame | hwrites
    . rw [hsame]
      exact h.counted
    . exact h.counted.writes h.consistent hwrites
  . exact preserved_of_after h.sound t (closed_hasLoadable _) h.loadable
  . exact h.timely.steps hsteps
  . exact (t.command.turns_run t.env).after s h.trusty

end IsWell

theorem isWell_empty : empty.IsWell where
  sound := Store.isSound_empty
  consistent := Store.isConsistent_empty
  counted := Store.isCounted_empty
  loadable := fun _ hc => by cases hc
  timely := fun _ he => by cases he
  faithful := fun _ hx => by cases hx

theorem isWell_reached (ts : List Turn) : (reached ts).IsWell := by
  induction ts using List.reverseRecOn with
  | nil => exact isWell_empty
  | append_singleton ts t ih =>
    rw [reached_concat]
    exact ih.after t

end Service

end StageGate
