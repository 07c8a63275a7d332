import StageGate.Proofs.Failures

/-!
This module contains what drafts that fail leave in a session that stays open. What was saved stays as it is, but what
the session holds may have changed, and is saved by whatever is kept next in it, if nobody rolls it back.
-/

namespace StageGate

/-! ## Drafts that fail -/

namespace Draft

variable {α β : Type} {s : Store} {left : Store → Prop} {post : α → Store → Prop}

/-- A draft that leads to an answer and a store as `post` says, or fails and leaves what `left` says, if anything. -/
def Leaves (d : Draft α) (s : Store) (left : Store → Prop) (post : α → Store → Prop) : Prop :=
  match d s with
  | .ok (a, s') => post a s'
  | .error f => ∀ s' ∈ f.left, left s'

theorem leaves_pure {a : α} (h : post a s) : Leaves (pure a) s left post :=
  h

theorem Leaves.bind {d : Draft β} {f : β → Draft α} {mid : β → Store → Prop} (h : d.Leaves s left mid)
    (hf : ∀ b s', mid b s' → (f b).Leaves s' left post) : (d >>= f).Leaves s left post := by
  have hbind : (d >>= f) s = d s >>= fun r => f r.1 r.2 := rfl
  unfold Leaves at h ⊢
  rw [hbind]
  cases hd : d s with
  | ok r =>
    rw [hd] at h
    exact hf r.1 r.2 h
  | error e =>
    rw [hd] at h
    exact h

theorem Leaves.mono {d : Draft α} {left' : Store → Prop} {post' : α → Store → Prop} (h : d.Leaves s left post)
    (hleft : ∀ s', left s' → left' s') (hpost : ∀ a s', post a s' → post' a s') : d.Leaves s left' post' := by
  unfold Leaves at *
  cases hd : d s with
  | ok r =>
    rw [hd] at h
    exact hpost r.1 r.2 h
  | error e =>
    rw [hd] at h
    exact fun s' hs' => hleft s' (h s' hs')

theorem leaves_look_bind {g : Store → Except Fault β} {f : β → Draft α} (hs : left s)
    (hf : ∀ b, g s = .ok b → (f b).Leaves s left post) : (look g >>= f).Leaves s left post := by
  have hlook : (look g).Leaves s left fun b s' => g s = .ok b ∧ s' = s := by
    unfold Leaves look
    cases g s with
    | ok b => exact ⟨rfl, rfl⟩
    | error e => exact fun s' hs' => Option.mem_some.mp hs' ▸ hs
  apply hlook.bind
  rintro b s' ⟨hb, rfl⟩
  exact hf b hb

theorem leaves_lift_bind {x : Except Fault β} {f : β → Draft α} (hs : left s)
    (hf : ∀ b, x = .ok b → (f b).Leaves s left post) : (liftM x >>= f : Draft α).Leaves s left post :=
  leaves_look_bind hs hf

theorem leaves_get_bind {f : Store → Draft α} (hf : (f s).Leaves s left post) : (get >>= f).Leaves s left post :=
  hf

theorem leaves_modify_bind {g : Store → Store} {f : PUnit → Draft α} (hf : (f ⟨⟩).Leaves (g s) left post) :
    (modify g >>= f).Leaves s left post :=
  hf

/-- Nothing is left when rows cannot be written. -/
theorem leaves_write {t : Transaction α} (h : ∀ a s', t s = .ok (a, s') → post a s') :
    (write t).Leaves s left post := by
  unfold Leaves write
  cases ht : t s with
  | ok r => exact h r.1 r.2 ht
  | error e => exact fun s' hs' => absurd hs' (Option.not_mem_none s')

theorem leaves_write_bind {t : Transaction β} {f : β → Draft α}
    (hf : ∀ b s', t s = .ok (b, s') → (f b).Leaves s' left post) : (write t >>= f).Leaves s left post := by
  have hwrite : (write t).Leaves s left fun b s' => t s = .ok (b, s') := leaves_write fun _ _ h => h
  exact hwrite.bind hf

theorem leaves_amid_bind {γ : Type} {changes : Transaction γ} {x : Except Fault β} {f : β → Draft α}
    (hleft : ∀ c s', changes s = .ok (c, s') → left s') (hf : ∀ b, x = .ok b → (f b).Leaves s left post) :
    (amid changes x >>= f).Leaves s left post := by
  have hamid : (amid changes x : Draft β).Leaves s left fun b s' => x = .ok b ∧ s' = s := by
    unfold Leaves amid
    cases x with
    | ok b => exact ⟨rfl, rfl⟩
    | error e =>
      intro s' hs'
      cases hchanges : changes s with
      | ok r =>
        rw [hchanges] at hs'
        cases hs'
        exact hleft r.1 r.2 hchanges
      | error e =>
        rw [hchanges] at hs'
        exact absurd hs' (Option.not_mem_none s')
  apply hamid.bind
  rintro b s' ⟨hb, rfl⟩
  exact hf b hb

theorem leaves_forIn {γ : Type} {f : β → Draft γ} {bs : List β} {I : Store → Prop} (hs : I s)
    (h : ∀ b s, I s → (f b).Leaves s I fun _ => I) :
    Draft.Leaves (forIn bs PUnit.unit fun b _ => f b >>= fun _ => pure (.yield PUnit.unit)) s I fun _ => I := by
  induction bs generalizing s with
  | nil => exact hs
  | cons b bs ih =>
    rw [List.forIn_cons, bind_assoc]
    exact (h b s hs).bind fun _ s' hs' => ih hs'

end Draft

namespace Session

variable {α : Type}

/--
A draft that fails in a session that holds `s` changes nothing that is saved, and the session is rolled back or holds
what `left` says.
-/
def Leaves (d : Draft α) (s : Store) (left : Store → Prop) : Prop :=
  ∀ saved e session, run d ⟨saved, s⟩ = (.error e, session) →
    session.saved = saved ∧ (session.held = saved ∨ left session.held)

theorem leaves_of_draft {d : Draft α} {s : Store} {left : Store → Prop} {post : α → Store → Prop}
    (h : d.Leaves s left post) : Leaves d s left := by
  intro saved e session hrun
  unfold run at hrun
  unfold Draft.Leaves at h
  simp only [StateT.run] at hrun
  cases hd : d s with
  | ok r =>
    rw [hd] at hrun
    cases hrun
  | error f =>
    rw [hd] at hrun h
    cases hrun
    refine ⟨rfl, ?_⟩
    cases hleft : f.left with
    | none => exact .inl rfl
    | some s' => exact .inr (h s' hleft)

end Session

/-! ## Configuration -/

/-- A store with further rows of the configuration and of the audit trail behind its own. -/
def Store.GrowsTo (s s' : Store) : Prop :=
  ∃ pipelines stages criteria audit, s' = { s with
    pipelines := s.pipelines ++ pipelines
    stages := s.stages ++ stages
    criteria := s.criteria ++ criteria
    audit := s.audit ++ audit }

namespace Store.GrowsTo

variable {s s' : Store}

theorem refl (s : Store) : s.GrowsTo s :=
  ⟨[], [], [], [], by simp⟩

theorem addPipeline (h : s.GrowsTo s') (p : Pipeline) : s.GrowsTo { s' with pipelines := s'.pipelines ++ [p] } := by
  obtain ⟨pipelines, stages, criteria, audit, rfl⟩ := h
  exact ⟨pipelines ++ [p], stages, criteria, audit, by simp⟩

theorem addStage (h : s.GrowsTo s') (stage : Stage) : s.GrowsTo { s' with stages := s'.stages ++ [stage] } := by
  obtain ⟨pipelines, stages, criteria, audit, rfl⟩ := h
  exact ⟨pipelines, stages ++ [stage], criteria, audit, by simp⟩

theorem addCriterion (h : s.GrowsTo s') (c : Criterion) : s.GrowsTo { s' with criteria := s'.criteria ++ [c] } := by
  obtain ⟨pipelines, stages, criteria, audit, rfl⟩ := h
  exact ⟨pipelines, stages, criteria ++ [c], audit, by simp⟩

theorem addAudit (h : s.GrowsTo s') (r : AuditRow) : s.GrowsTo (s'.addAudit r) := by
  obtain ⟨pipelines, stages, criteria, audit, rfl⟩ := h
  exact ⟨pipelines, stages, criteria, audit ++ [r], by simp [Store.addAudit]⟩

end Store.GrowsTo

namespace Configuration

open Draft Transaction

variable {a : Author} {s s' : Store}

theorem leaves_draftCriterion {stage : Stage} {data : Value} {left : Store → Prop} (h : s.GrowsTo s')
    (hleft : left s') : (draftCriterion a stage data).Leaves s' left fun _ => s.GrowsTo := by
  unfold draftCriterion
  apply leaves_look_bind hleft
  intro c _
  apply leaves_write
  intro c' s'' hwrite
  simp only [Transaction.bind_eq_ok, lift_eq_ok, pure_eq_ok, Transaction.addCriterion, modify_eq_ok, recordCreation,
    record_eq_ok] at hwrite
  obtain ⟨c, _, ⟨-, rfl⟩, _, _, rfl, _, _, ⟨actor, -, rfl⟩, -, rfl⟩ := hwrite
  exact (h.addCriterion c).addAudit _

theorem leaves_draftStageAfter {pipeline : Int} {orders : List Value} {data : Value} (h : s.GrowsTo s') :
    (draftStageAfter a pipeline orders data).Leaves s' s.GrowsTo fun _ => s.GrowsTo := by
  unfold draftStageAfter
  apply leaves_lift_bind h
  intro fields _
  apply leaves_lift_bind h
  intro next _
  apply leaves_lift_bind h
  intro order _
  apply leaves_lift_bind h
  intro _ _
  apply leaves_lift_bind h
  intro name _
  apply leaves_write_bind
  intro stage s₁ hwrite
  have h₁ : s.GrowsTo s₁ := by
    simp only [Transaction.bind_eq_ok, reading_eq_ok, pure_eq_ok, Transaction.addStage, get_eq_ok, demand_eq_ok,
      modify_eq_ok, recordCreation, record_eq_ok] at hwrite
    obtain ⟨row, _, ⟨-, rfl⟩, _, _, ⟨_, _, ⟨rfl, rfl⟩, _, _, ⟨-, rfl⟩, rfl⟩, _, _, ⟨actor, -, rfl⟩, -, rfl⟩ := hwrite
    exact (h.addStage row).addAudit _
  apply leaves_lift_bind h₁
  intro items _
  exact (leaves_forIn h₁ fun data s₂ h₂ => leaves_draftCriterion h₂ h₂).bind fun _ s₂ h₂ => leaves_pure h₂

theorem leaves_draftStage {p : Pipeline} {data : Value} (h : s.GrowsTo s') :
    (draftStage a p data).Leaves s' s.GrowsTo fun _ => s.GrowsTo := by
  unfold draftStage
  apply leaves_get_bind
  exact (leaves_draftStageAfter h).bind fun _ _ h' => leaves_pure h'

theorem leaves_draftStages {pipeline : Int} {added : List (Stage × Value)} {items : List Value} (h : s.GrowsTo s') :
    (draftStages a pipeline added items).Leaves s' s.GrowsTo fun _ => s.GrowsTo := by
  induction items generalizing added s' with
  | nil => exact leaves_pure h
  | cons data rest ih => exact (leaves_draftStageAfter h).bind fun _ _ h' => ih h'

theorem leaves_draftPipeline {data : Value} (h : s.GrowsTo s') :
    (draftPipeline a data).Leaves s' s.GrowsTo fun _ => s.GrowsTo := by
  unfold draftPipeline
  apply leaves_lift_bind h
  intro fields _
  apply leaves_lift_bind h
  intro name _
  apply leaves_write_bind
  intro p s₁ hwrite
  have h₁ : s.GrowsTo s₁ := by
    simp only [Transaction.bind_eq_ok, reading_eq_ok, pure_eq_ok, addPipeline, modify_eq_ok] at hwrite
    obtain ⟨row, _, ⟨-, rfl⟩, _, _, rfl, -, rfl⟩ := hwrite
    exact h.addPipeline row
  apply leaves_lift_bind h₁
  intro items _
  apply (leaves_draftStages h₁).bind
  intro added s₂ h₂
  have hrecord : ∀ u s₃, recordCreation a .pipeline p.id p.id
      [("name", .text p.name), ("stages", .int added.length)] s₂ = .ok (u, s₃) → s.GrowsTo s₃ := by
    intro _ s₃ hwrite
    obtain ⟨actor, -, rfl⟩ := record_eq_ok.mp hwrite
    exact h₂.addAudit _
  split
  . apply leaves_lift_bind h₂
    intro _ _
    exact leaves_write_bind fun u s₃ hwrite => leaves_pure (hrecord u s₃ hwrite)
  . exact leaves_write_bind fun u s₃ hwrite => leaves_pure (hrecord u s₃ hwrite)

/-- A store in which the row of a criterion may be another one. -/
def Rewrites (c : Criterion) (s s' : Store) : Prop :=
  ∃ new : Criterion, new.id = c.id ∧
    s' = { s with criteria := s.criteria.map fun x => if x.id = new.id then new else x }

theorem rewrites_of_putCriterion {c new : Criterion} {u : Unit} (h : putCriterion new s = .ok (u, s'))
    (hid : new.id = c.id) : Rewrites c s s' :=
  ⟨new, hid, (modify_eq_ok.mp h).symm⟩

theorem rewrites_of_writeUpdate {c updated : Criterion} {supplied shared : Bool} {r : Criterion × Fields}
    (h : writeUpdate a c updated supplied shared s = .ok (r, s')) (hid : updated.id = c.id) : Rewrites c s s' := by
  simp only [writeUpdate, writable, Transaction.bind_eq_ok, StageGate.bind_eq_ok, lift_eq_ok, pure_eq_ok] at h
  obtain ⟨kept, _, ⟨⟨_, -, place, -, hkept⟩, rfl⟩, _, _, hput, -, rfl⟩ := h
  cases hkept
  exact rewrites_of_putCriterion hput hid

theorem leaves_draftUpdate {c : Criterion} {data : Value} {shared : Bool} :
    (draftUpdate a c data shared).Leaves s (fun s' => s' = s ∨ Rewrites c s s') fun _ _ => True := by
  unfold draftUpdate
  apply leaves_lift_bind (.inl rfl)
  intro fields _
  apply leaves_lift_bind (.inl rfl)
  intro kind _
  apply leaves_lift_bind (.inl rfl)
  intro rule _
  apply leaves_lift_bind (.inl rfl)
  intro name _
  apply leaves_amid_bind fun _ _ hwrite => .inr (rewrites_of_writeUpdate hwrite rfl)
  intro place _
  apply leaves_write_bind
  intro _ s₁ hwrite
  apply leaves_look_bind (.inr (rewrites_of_writeUpdate hwrite rfl))
  intro pipeline _
  exact leaves_write_bind fun _ _ _ => trivial

end Configuration

namespace Flagging

open Draft Transaction Configuration

variable {a : Author} {s s' : Store}

theorem leaves_draftFlag {lead criterion notes : Value} {flag : Flag} {value : Bool} :
    (draftFlag a lead criterion flag value notes).Leaves s (fun s' => ∃ flags, s' = { s with flags }) fun _ _ =>
      True := by
  unfold draftFlag
  apply leaves_look_bind ⟨s.flags, rfl⟩
  intro l _
  apply leaves_look_bind ⟨s.flags, rfl⟩
  intro c _
  apply leaves_look_bind ⟨s.flags, rfl⟩
  intro old _
  apply leaves_get_bind
  apply leaves_write_bind
  intro new s₁ hwrite
  have h₁ : ∃ flags, s₁ = { s with flags } := by
    simp only [Transaction.bind_eq_ok, lift_eq_ok, pure_eq_ok] at hwrite
    obtain ⟨validator, _, ⟨-, rfl⟩, notes, _, ⟨-, rfl⟩, _, _, hsave, -, rfl⟩ := hwrite
    unfold saveRow at hsave
    split at hsave
    . exact ⟨_, (modify_eq_ok.mp hsave).symm⟩
    . exact ⟨_, (modify_eq_ok.mp hsave).symm⟩
  apply leaves_look_bind h₁
  intro stage _
  exact leaves_write_bind fun _ _ _ => trivial

end Flagging

/-! ## Health -/

namespace HealthSummary

open Draft

variable {window : Value} {now : Stamp} {pipeline : Int} {s s' : Store}

theorem leaves_goThrough {t : Tally} {es : List Entry} (hids : (s.entries.map (·.id)).Pairwise (· < ·))
    (hes : ∀ e ∈ es, e ∈ s.entries ∧ e.pipeline = pipeline ∧ e.isActive) (h : IsRefreshed pipeline s s') :
    (goThrough window now t es).Leaves s' (IsRefreshed pipeline s) fun _ => IsRefreshed pipeline s := by
  -- By induction on the entries; those that come first have refreshed what the session holds.
  induction es generalizing t s' with
  | nil => exact leaves_pure h
  | cons e es ih =>
    rw [List.forall_mem_cons] at hes
    obtain ⟨⟨hmem, hp, hactive⟩, hrest⟩ := hes
    unfold goThrough
    apply leaves_lift_bind h
    intro now' _
    apply leaves_look_bind h
    intro stage _
    apply leaves_lift_bind h
    intro health _
    apply leaves_modify_bind
    exact ih hrest (h.putEntry hids hmem hp hactive health.bucket)

theorem leaves_draft {name : Value} (hs : s.IsKeyed) : (draft window name now).Leaves s
    (fun s' => s' = s ∨ ∃ p, s.pipeline name = .ok p ∧ IsRefreshed p.id s s') fun _ _ => True := by
  unfold draft
  apply leaves_look_bind (.inl rfl)
  intro p hp
  apply leaves_get_bind
  have hactive : ∀ e ∈ s.entries.filter (fun e => e.pipeline = p.id && e.isActive),
      e ∈ s.entries ∧ e.pipeline = p.id ∧ e.isActive := by
    simp
  apply Leaves.bind ((leaves_goThrough hs.entries hactive isRefreshed_self).mono ?_ fun _ _ _ => trivial)
  . exact fun _ _ _ => leaves_pure trivial
  . exact fun s' hs' => .inr ⟨p, hp, hs'⟩

end HealthSummary

/-! ## Sessions -/

namespace Session

open Configuration

/-- What failures leave in sessions that hold `s`: every draft what it writes itself, and nothing of other rows. -/
structure Contains (s : Store) : Prop where
  pipeline : ∀ a data, Leaves (draftPipeline a data) s s.GrowsTo
  stage : ∀ a p data, Leaves (draftStage a p data) s s.GrowsTo
  criterion : ∀ a stage data, Leaves (draftCriterion a stage data) s (· = s)
  update : ∀ a c data shared, Leaves (draftUpdate a c data shared) s fun s' => s' = s ∨ Rewrites c s s'
  flag : ∀ a lead criterion flag value notes, Leaves (Flagging.draftFlag a lead criterion flag value notes) s
    fun s' => ∃ flags, s' = { s with flags }
  health : ∀ window pipeline now, Leaves (HealthSummary.draft window pipeline now) s
    fun s' => s' = s ∨ ∃ p, s.pipeline pipeline = .ok p ∧ HealthSummary.IsRefreshed p.id s s'

theorem contains {s : Store} (hs : s.IsKeyed) : Contains s where
  pipeline _ _ := leaves_of_draft (leaves_draftPipeline (.refl s))
  stage _ _ _ := leaves_of_draft (leaves_draftStage (.refl s))
  criterion _ _ _ := leaves_of_draft (leaves_draftCriterion (.refl s) rfl)
  update _ _ _ _ := leaves_of_draft leaves_draftUpdate
  flag _ _ _ _ _ _ := leaves_of_draft Flagging.leaves_draftFlag
  health _ _ _ := leaves_of_draft (HealthSummary.leaves_draft hs)

end Session

end StageGate
