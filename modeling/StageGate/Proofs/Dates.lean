import StageGate.Proofs.Replay
import StageGate.Proofs.Timeouts
import StageGate.Proofs.Writes

/-!
This module contains when the rows about entries are written. All that a turn writes of them carries its time, so as
long as the turns that write do so one after the other, the rows stand in the order of their times.
-/

namespace StageGate

open Transaction Operation

/-! ## Rows of one time -/

/-- What a trail becomes of rows that are about entries at one time, or about anything else. -/
def Store.IsDated (trail : List AuditRow) (time : Instant) (s : Store) : Prop :=
  ∀ r ∈ s.audit, r.subject = .entry → r ∈ trail ∨ r.writtenAt = time

theorem Transaction.composes_isDated (trail : List AuditRow) (time : Instant) :
    Composes (fun _ t => t.Preserves (Store.IsDated trail time)) time where
  pure := preserves_pure
  bind := preserves_bind
  get := preserves_get
  reading _ s _ s' h ht := by
    rw [store_of_reading ht]
    exact h
  lift _ s _ s' h ht := by
    obtain ⟨-, rfl⟩ := lift_eq_ok.mp ht
    exact h
  addEntry e s _ s' h ht := by
    obtain ⟨-, rfl⟩ := addEntry_eq_ok.mp ht
    exact h
  putEntry _ := preserves_putEntry fun _ h => h
  record n s _ s' h ht := by
    obtain ⟨_, -, rfl⟩ := record_eq_ok.mp ht
    intro r hr hsubject
    rcases List.mem_append.mp hr with hr | hr
    . exact h r hr hsubject
    . rw [List.mem_singleton.mp hr]
      exact .inr rfl
  refusing h s a s' hs ht := h s a s' hs (refusingViolations_eq_ok.mp ht)

/-! ## Turns -/

namespace Operation

variable {α : Type} {I : Store → Prop}

theorem turns_commit_of_preserves {t : Transaction α} (h : t.Preserves I) : Turns (commit t) (I ·.store) (I ·.store) := by
  constructor
  intro s hs
  rw [commit_eq]
  cases ht : t s.store with
  | error e => exact hs
  | ok r => exact h s.store r.1 r.2 hs ht

theorem turns_holding_store {enter : LockTable → Except Fault Unit × LockTable} {release : LockTable → LockTable}
    {body : Operation α} (h : Turns body (I ·.store) (I ·.store)) :
    Turns (holding enter release body) (I ·.store) (I ·.store) :=
  turns_holding (fun _ _ h => h) (fun _ _ h => h) (fun _ h => h) h

end Operation

namespace Command

/-- The time at which a command works on entries. -/
def time (k : Command) (env : Environment) : Instant :=
  (k.caller?.bind (·.now)).getD env.now

theorem turns_dated {k : Command} (hk : k.effect ≠ .quiet) (env : Environment) (trail : List AuditRow) :
    Turns (k.run env) (Store.IsDated trail (k.time env) ·.store) (Store.IsDated trail (k.time env) ·.store) := by
  have hdated := fun caller => composes_isDated trail (run.call env caller).now
  cases k with
  | enroll caller lead pipeline note =>
    apply turns_map
    apply turns_enroll
    intro l p
    exact turns_holding_store (turns_commit_of_preserves ((hdated caller).refusing (hdated caller).openRecorded))
  | enrollMany caller leads pipeline skipExisting note =>
    apply turns_map
    apply turns_enrollMany
    intro keys p leads
    exact turns_holding_store (turns_commit_of_preserves (hdated caller).openEach)
  | archive caller entry reason =>
    apply turns_map
    apply turns_archive
    intro key waiter e
    exact turns_holding_store (turns_commit_of_preserves (hdated caller).archiveRecorded)
  | transfer caller entry pipeline reason note =>
    apply turns_map
    apply turns_transfer
    intro keys lead e p
    exact turns_holding_store (turns_commit_of_preserves ((hdated caller).refusing (hdated caller).transferRecorded))
  | advance caller entry stage knowledge note =>
    apply turns_map
    apply Advancement.turns_advance (fun _ h => h) fun _ _ _ _ => turns_holding_store
    intro e
    apply Advancement.turns_advanceHeld (fun _ h => h)
    . intro stage
      constructor
      intro s hs
      rw [loadChecks_store]
      exact hs
    . intro current stage verdict sla
      exact turns_commit_of_preserves (hdated caller).move
  | _ => exact absurd rfl hk

end Command

namespace Service

/-- The times at which turns write about entries. -/
def times (s : Service) : List Turn → List Instant
  | [] => []
  | t :: ts =>
    (if t.command.outcomeRows (s.answer t) = 0 then [] else [t.command.time t.env]) ++ (s.after t).times ts

theorem times_concat (s : Service) (ts : List Turn) (t : Turn) : s.times (ts ++ [t]) = s.times ts ++
    if t.command.outcomeRows ((s.run ts).answer t) = 0 then [] else [t.command.time t.env] := by
  induction ts generalizing s with
  | nil =>
    simp only [List.nil_append, times, List.append_nil]
    rfl
  | cons t' ts ih =>
    have hrun : s.run (t' :: ts) = (s.after t').run ts := rfl
    rw [List.cons_append, times, times, ih, hrun, List.append_assoc]

/-- A turn that writes rows about entries is one that says so, and writes them at its time. -/
theorem exists_dated {s : Service} (hs : s.store.IsSound) (t : Turn) :
    ∃ rs, (s.after t).store.audit = s.store.audit ++ rs ∧ ∀ r ∈ rs, r.subject = .entry →
      t.command.outcomeRows (s.answer t) ≠ 0 ∧ r.writtenAt = t.command.time t.env := by
  obtain ⟨rs, haudit, hcount⟩ := entryRows_after hs t
  refine ⟨rs, haudit, ?_⟩
  intro r hr hsubject
  have hsome : t.command.outcomeRows (s.answer t) ≠ 0 := by
    rw [← hcount, ← Nat.pos_iff_ne_zero, List.countP_pos_iff]
    exact ⟨r, hr, by simpa using hsubject⟩
  refine ⟨hsome, ?_⟩
  have heffect : t.command.effect ≠ .quiet := by
    intro hquiet
    apply hsome
    cases hanswer : s.answer t with
    | error e => rfl
    | ok v => exact Command.entryRows_of_quiet hquiet v
  have hdated := (Command.turns_dated heffect t.env s.store.audit).after s fun x hx _ => .inl hx
  have hmem : r ∈ (s.after t).store.audit := by
    rw [haudit]
    exact List.mem_append_right _ hr
  apply (hdated r hmem hsubject).resolve_left
  intro hold
  obtain ⟨n, hsteps, -⟩ := exists_steps hs t
  have hids := (hs.steps hsteps).auditIds
  rw [haudit, List.map_append, List.pairwise_append] at hids
  have := hids.2.2 r.id (List.mem_map_of_mem hold) r.id (List.mem_map_of_mem hr)
  omega

/-- The rows about entries stand in the order of the times of the turns that wrote them. -/
theorem dated_reached (ts : List Turn) (htimes : (empty.times ts).Pairwise (· ≤ ·)) :
    (∀ r ∈ (reached ts).store.audit, r.subject = .entry → r.writtenAt ∈ empty.times ts) ∧
      ((reached ts).store.audit.filter (·.subject = .entry)).Pairwise (·.writtenAt ≤ ·.writtenAt) := by
  induction ts using List.reverseRecOn with
  | nil => simp [reached, run, empty, Store.empty]
  | append_singleton ts t ih =>
    have hrun : empty.run ts = reached ts := rfl
    rw [times_concat, hrun] at htimes ⊢
    rw [List.pairwise_append] at htimes
    obtain ⟨hin, hsorted⟩ := ih htimes.1
    obtain ⟨rs, haudit, hrs⟩ := exists_dated (isSound_reached ts) t
    rw [reached_concat, haudit]
    have hnew : ∀ r ∈ rs, r.subject = .entry → r.writtenAt ∈
        if t.command.outcomeRows ((reached ts).answer t) = 0 then [] else [t.command.time t.env] := by
      intro r hr hsubject
      obtain ⟨hsome, htime⟩ := hrs r hr hsubject
      rw [if_neg hsome, htime]
      exact List.mem_singleton_self _
    constructor
    . intro r hr hsubject
      rw [List.mem_append] at hr ⊢
      exact hr.imp (fun hr => hin r hr hsubject) fun hr => hnew r hr hsubject
    . rw [List.filter_append, List.pairwise_append]
      refine ⟨hsorted, ?_, ?_⟩
      . apply List.pairwise_of_forall_mem_list
        intro x hx y hy
        simp only [List.mem_filter, decide_eq_true_eq] at hx hy
        rw [(hrs x hx.1 hx.2).2, (hrs y hy.1 hy.2).2]
        exact Int.le_refl _
      . intro x hx y hy
        simp only [List.mem_filter, decide_eq_true_eq] at hx hy
        exact htimes.2.2 _ (hin x hx.1 hx.2) _ (hnew y hy.1 hy.2)

end Service

end StageGate
