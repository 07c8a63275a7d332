import StageGate.Proofs.Commands

/-!
This module contains what is always so of the configuration and of what entries refer to: deadlines are
numbers, no two stages of a pipeline share an order, pipelines and leads that rows refer to are there, and
rules are documents.
-/

namespace StageGate

/-! ## Health that can be told -/

theorem Value.exists_atMost {window : Value} (h : window.isNumber) (n : Int) :
    ∃ b, Value.atMost (.int n) window = .ok b := by
  obtain ⟨hd, x, hx, -⟩ := exists_magnitude h
  have hn : magnitude? (.int n) = some (.ofInt n) := rfl
  have hexact : isDecimal (.int n) = false := rfl
  have hm : magnitudes (.int n) window = .ok (.ofInt n, x) := by simp [magnitudes, hn, hx, hd, hexact]
  unfold atMost
  split
  . exact ⟨_, rfl⟩
  . rw [hm]
    exact ⟨_, rfl⟩

theorem Standing.exists_of {deadline window : Value} (hd : deadline.isDeadline) (hw : window.isNumber)
    (elapsed : Int) : ∃ standing, Standing.of (.int elapsed) deadline window = .ok standing := by
  cases deadline with
  | int n =>
    have hn : 0 ≤ n := by simpa [Value.isDeadline] using hd
    have hsense : isSenseless (.int n) = .ok false := by simp [isSenseless, hn]
    obtain ⟨pressing, hpressing⟩ := Value.exists_atMost hw (n - elapsed)
    simp only [Standing.of, hsense, Value.sub_int, Value.positivePart_int, Value.lt_int, hpressing, bind, Except.bind,
      Bool.false_eq_true, ↓reduceIte, pure, Except.pure]
    split <;> exact ⟨_, rfl⟩
  | _ => simp [Value.isDeadline] at hd

theorem Health.exists_of {entered due : Instant} {deadline window : Value} (hd : deadline.isDeadline)
    (hw : window.isNumber) (hdue : entered.addDays deadline = .ok due) (now : Instant) :
    ∃ health, Health.of entered now deadline window = .ok health := by
  obtain ⟨standing, hstanding⟩ := Standing.exists_of hd hw (entered.wholeDays now)
  cases deadline with
  | int n =>
    refine ⟨⟨entered.wholeDays now, .int n, standing, .int (n - entered.wholeDays now), due⟩, ?_⟩
    simp only [Health.of, hstanding, hdue, Value.sub_int, bind, Except.bind, pure, Except.pure]
  | _ => simp [Value.isDeadline] at hd

/-- What a call has to bring with it so that an entry can get into a stage. -/
structure Call.Suits (c : Call) (stage : Stage) : Prop where
  actor : ∃ actor, Transaction.signature c.actor = .ok actor
  window : c.window.isNumber
  due : ∃ due, c.now.addDays stage.deadline = .ok due

namespace Store

structure IsConsistent (s : Store) : Prop where
  deadlines : ∀ stage ∈ s.stages, stage.deadline.isDeadline
  apart : ∀ x ∈ s.stages, ∀ y ∈ s.stages, x.pipeline = y.pipeline → x.order.same y.order → x = y
  homes : ∀ stage ∈ s.stages, s.HasPipeline stage.pipeline
  leads : ∀ e ∈ s.entries, s.Knows e.lead
  documents : s.HasDocuments

theorem isConsistent_empty : empty.IsConsistent := by
  constructor <;> simp [empty, HasDocuments]

namespace IsConsistent

variable {s s' : Store}

/-! ## Steps -/

theorem of_keeps (h : s.IsConsistent) (hk : s.Keeps s') (hstages : s'.stages = s.stages)
    (hentries : ∀ e ∈ s'.entries, s.Knows e.lead) : s'.IsConsistent where
  deadlines := by
    rw [hstages]
    exact h.deadlines
  apart := by
    rw [hstages]
    exact h.apart
  homes := by
    rw [hstages]
    exact fun stage hstage => hk.pipelines (h.homes stage hstage)
  leads := fun e he => (hentries e he).mono hk
  documents := hk.hasDocuments h.documents

theorem addStage {stage : Stage} (hs : s.IsSound) (h : s.IsConsistent) (hfits : s.Fits stage) :
    { s with stages := s.stages ++ [stage] : Store }.IsConsistent where
  deadlines := by
    intro x hx
    rw [List.mem_append, List.mem_singleton] at hx
    rcases hx with hx | rfl
    . exact h.deadlines x hx
    . exact hfits.deadline
  apart := by
    have hseat : ∀ x ∈ s.stages, x.pipeline = stage.pipeline → x.order.same stage.order → False := by
      have hseat := hfits.seat
      unfold seats at hseat
      grind
    intro x hx y hy hpipeline hsame
    rw [List.mem_append, List.mem_singleton] at hx hy
    rcases hx with hx | rfl <;> rcases hy with hy | rfl
    . exact h.apart x hx y hy hpipeline hsame
    . exact (hseat x hx hpipeline hsame).elim
    . rw [Value.same_comm hfits.order (hs.orders y hy)] at hsame
      exact (hseat y hy hpipeline.symm hsame).elim
    . rfl
  homes := by
    intro x hx
    rw [List.mem_append, List.mem_singleton] at hx
    rcases hx with hx | rfl
    . exact h.homes x hx
    . exact hfits.home
  leads := h.leads
  documents := h.documents

theorem leads_putEntry {e new : Entry} (h : s.IsConsistent) (he : e ∈ s.entries) (hlead : new.lead = e.lead) :
    ∀ x ∈ (s.putEntry new).entries, s.Knows x.lead := by
  intro x hx
  rcases mem_putEntry hx with rfl | ⟨hx, -⟩
  . rw [hlead]
    exact h.leads e he
  . exact h.leads x hx

theorem leads_addEntry {e : Entry} (h : ∀ x ∈ s.entries, s'.Knows x.lead) (he : s'.Knows e.lead) :
    ∀ x ∈ (s.addEntry e).entries, s'.Knows x.lead := by
  intro x hx
  rw [addEntry_entries, List.mem_append, List.mem_singleton] at hx
  rcases hx with hx | rfl
  . exact h x hx
  . exact he

theorem step {f : Effect} (hs : s.IsSound) (h : s.IsConsistent) (hstep : Step f s s') : s'.IsConsistent := by
  have hkeeps := hstep.keeps
  cases hstep with
  | aside hstages hentries _ _ =>
    apply h.of_keeps hkeeps hstages
    rw [hentries]
    exact h.leads
  | addStage _ _ fit => exact addStage hs h fit
  | note => exact h.of_keeps hkeeps rfl h.leads
  | refresh _ held => exact h.of_keeps hkeeps rfl (h.leads_putEntry held.mem rfl)
  | enroll _ _ _ _ known => exact h.of_keeps hkeeps rfl (leads_addEntry h.leads known)
  | move held _ _ placed =>
    apply h.of_keeps hkeeps rfl
    exact h.leads_putEntry held.mem (Advancement.isPlaced_of_placed placed).lead
  | archive held => exact h.of_keeps hkeeps rfl (h.leads_putEntry held.mem rfl)
  | @transfer _ c e opened _ _ _ _ kept held _ _ lead =>
    have hclosed : ∀ x ∈ (s.putEntry (e.archive kept c.now)).entries, s.Knows x.lead :=
      h.leads_putEntry held.mem rfl
    apply h.of_keeps hkeeps rfl
    apply leads_addEntry hclosed
    rw [lead]
    exact h.leads e held.mem

theorem steps {f : Effect} {n : Nat} (hs : s.IsSound) (h : s.IsConsistent) (hsteps : Steps f s n s') :
    s'.IsConsistent := by
  induction hsteps with
  | refl => exact h
  | tail hsteps hstep ih => exact step (hs.steps hsteps) ih hstep

/-! ## Rows that are found -/

theorem exists_lead (h : s.IsConsistent) {e : Entry} (he : e ∈ s.entries) :
    ∃ l, s.lead (.int e.lead) = .ok l ∧ l.id = e.lead := by
  obtain ⟨hmem, hcheck⟩ := h.leads e he
  rw [List.mem_map] at hmem
  obtain ⟨l, hl, hid⟩ := hmem
  have hsome : (s.lead? e.lead).isSome := by
    unfold lead?
    rw [List.find?_isSome]
    exact ⟨l, hl, by simpa using hid⟩
  obtain ⟨x, hx⟩ := Option.isSome_iff_exists.mp hsome
  refine ⟨x, ?_, by simpa using List.find?_some hx⟩
  rw [lead, require_int hcheck, hx]

theorem exists_pipeline (h : s.IsConsistent) {stage : Stage} (hstage : stage ∈ s.stages) :
    ∃ p, s.pipeline? stage.pipeline = some p := by
  have hhome := h.homes stage hstage
  unfold HasPipeline at hhome
  rw [List.mem_map] at hhome
  obtain ⟨p, hp, hid⟩ := hhome
  rw [← Option.isSome_iff_exists, pipeline?, List.find?_isSome]
  exact ⟨p, hp, by simpa using hid⟩

end IsConsistent

end Store

namespace Service

theorem isConsistent_run {s : Service} (hs : s.store.IsSound) (h : s.store.IsConsistent) (ts : List Turn) :
    (s.run ts).store.IsConsistent :=
  run_induction (fun s s' => s.IsConsistent → s'.IsConsistent) (fun _ h => h)
    (fun h h' hs => h' (h hs)) (fun hs hstep h => .step hs h hstep) hs ts h

theorem isConsistent_reached (ts : List Turn) : (reached ts).store.IsConsistent :=
  isConsistent_run Store.isSound_empty Store.isConsistent_empty ts

end Service

end StageGate
