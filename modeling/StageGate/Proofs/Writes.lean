import StageGate.Proofs.Transactions

/-!
This module contains what commands write. A command leaves the rows as they are, or writes what its one
transaction writes, so that what holds of every store that is reached follows from the transactions.
-/

namespace StageGate

/-! ## What transactions preserve -/

namespace Transaction

section

variable {α β : Type} {I : Store → Prop}

/-- A transaction that keeps what holds of a store, whenever it answers. -/
def Preserves (t : Transaction α) (I : Store → Prop) : Prop :=
  ∀ s a s', I s → t s = .ok (a, s') → I s'

theorem preserves_pure (a : α) : (pure a : Transaction α).Preserves I := by
  intro s _ s' h ht
  obtain ⟨-, rfl⟩ := pure_eq_ok.mp ht
  exact h

theorem preserves_bind {t : Transaction β} {f : β → Transaction α} (ht : t.Preserves I)
    (hf : ∀ b, (f b).Preserves I) : (t >>= f).Preserves I := by
  intro s a s' h h'
  obtain ⟨b, s'', hb, ha⟩ := bind_eq_ok.mp h'
  exact hf b s'' a s' (ht s b s'' h hb) ha

theorem preserves_lift_bind {x : Except Fault β} {f : β → Transaction α}
    (hf : ∀ b, x = .ok b → (f b).Preserves I) : (liftM x >>= f : Transaction α).Preserves I := by
  intro s a s' h h'
  obtain ⟨b, s'', hb, ha⟩ := bind_eq_ok.mp h'
  obtain ⟨hx, rfl⟩ := lift_eq_ok.mp hb
  exact hf b hx s a s' h ha

theorem preserves_reading_bind {g : Store → Except Fault β} {f : β → Transaction α}
    (hf : ∀ s b, g s = .ok b → (f b).Preserves I) : (reading g >>= f).Preserves I := by
  intro s a s' h h'
  obtain ⟨b, s'', hb, ha⟩ := bind_eq_ok.mp h'
  obtain ⟨hg, rfl⟩ := reading_eq_ok.mp hb
  exact hf s b hg s a s' h ha

theorem preserves_get : (get : Transaction Store).Preserves I := by
  intro s _ s' h ht
  obtain ⟨-, rfl⟩ := get_eq_ok.mp ht
  exact h

theorem preserves_modify {f : Store → Store} (hf : ∀ s, I s → I (f s)) :
    (modify f : Transaction PUnit).Preserves I := by
  intro s _ s' h ht
  rw [← modify_eq_ok.mp ht]
  exact hf s h

theorem preserves_record {n : Note} {time : Instant} (hI : ∀ s r, I s → I (s.addAudit r)) :
    (record n time).Preserves I := by
  intro s _ s' h ht
  obtain ⟨_, -, rfl⟩ := record_eq_ok.mp ht
  exact hI s _ h

theorem preserves_putEntry {e : Entry} (hI : ∀ s, I s → I (s.putEntry e)) : (putEntry e).Preserves I := by
  intro s _ s' h ht
  obtain ⟨-, rfl⟩ := putEntry_eq_ok.mp ht
  exact hI s h

theorem preserves_forIn {f : β → PUnit → Transaction (ForInStep PUnit)} {bs : List β}
    (h : ∀ b u, (f b u).Preserves I) (u : PUnit) : (forIn bs u f : Transaction PUnit).Preserves I := by
  induction bs with
  | nil =>
    rw [List.forIn_nil]
    exact preserves_pure u
  | cons b bs ih =>
    rw [List.forIn_cons]
    apply preserves_bind (h b u)
    intro r
    cases r with
    | done u => exact preserves_pure u
    | yield u => exact ih

end

end Transaction

/-! ## What commands write -/

open Operation

namespace Operation

section

variable {α β : Type} {base : Store}

theorem turns_commit_base {t : Transaction α} : Turns (commit t) (·.store = base)
    fun s => s.store = base ∨ ∃ a, t base = .ok (a, s.store) := by
  constructor
  rintro s rfl
  rw [commit_eq]
  cases h : t s.store with
  | error e => exact .inl rfl
  | ok r => exact .inr ⟨r.1, rfl⟩

/-- An operation that commits a transaction and then only reads, or forgets what was cached. -/
theorem turns_commit_bind_base {t : Transaction β} {f : β → Operation α} {W : Store → Prop}
    (hW : ∀ b s', t base = .ok (b, s') → W s')
    (hf : ∀ (I : Store → Prop) b, Turns (f b) (I ·.store) (I ·.store)) :
    Turns (commit t >>= f) (·.store = base) fun s => s.store = base ∨ W s.store := by
  have himp : ∀ s' : Service, (s'.store = base ∨ ∃ b, t base = .ok (b, s'.store)) →
      s'.store = base ∨ W s'.store := by
    intro s' h
    exact h.imp_right fun ⟨b, hb⟩ => hW b s'.store hb
  apply turns_bind himp turns_commit_base
  intro b
  exact (hf (fun store => store = base ∨ ∃ b, t base = .ok (b, store)) b).mono (fun _ h => h) himp

/-- An operation that looks a row up before it commits. -/
theorem turns_reading_base {g : Store → Except Fault β} {f : β → Operation α} {J : Service → Prop}
    (hJ : ∀ s : Service, s.store = base → J s) (hf : ∀ b, g base = .ok b → Turns (f b) (·.store = base) J) :
    Turns (reading g >>= f) (·.store = base) J := by
  constructor
  rintro s rfl
  have hread := reading_eq g s
  cases hg : g s.store with
  | error e =>
    rw [hg] at hread
    rw [bind_of_error hread]
    exact hJ s rfl
  | ok b =>
    rw [hg] at hread
    rw [bind_of_ok hread]
    exact (hf b hg).after s rfl

end

end Operation

namespace Command

/-- What a command that changes a store leaves there: what its transaction does, or the steps of its effect. -/
inductive Writes (env : Environment) (s : Store) : Command → Store → Prop where
  | createLead {values : Fields} {l : Lead} {s' : Store} (done : Direct.addLead env.now values s = .ok (l, s')) :
      Writes env s (.createLead values) s'
  | createPipeline {actor data : Value} {p : Pipeline} {s' : Store}
      (done : Configuration.createPipeline ⟨actor, env.now⟩ data s = .ok (p, s')) :
      Writes env s (.createPipeline actor data) s'
  | addStage {actor pipeline data : Value} {p : Pipeline} {stage : Stage} {s' : Store}
      (found : s.pipeline pipeline = .ok p)
      (done : Configuration.addStage ⟨actor, env.now⟩ p data s = .ok (stage, s')) :
      Writes env s (.addStage actor pipeline data) s'
  | addCriterion {actor stage data : Value} {target : Stage} {c : Criterion} {s' : Store}
      (found : s.stage stage = .ok target)
      (done : Configuration.addCriterion ⟨actor, env.now⟩ target data s = .ok (c, s')) :
      Writes env s (.addCriterion actor stage data) s'
  | updateCriterion {actor criterion data : Value} {shared : Bool} {c updated : Criterion} {s' : Store}
      (found : s.criterion criterion = .ok c)
      (done : Configuration.updateCriterion ⟨actor, env.now⟩ c data shared s = .ok (updated, s')) :
      Writes env s (.updateCriterion actor criterion data shared) s'
  | setFlag {actor : Value} {flag : Flagging.Flag} {lead criterion : Value} {value : Bool} {notes : Value}
      {r : FlagRow} {s' : Store}
      (done : Flagging.setFlag ⟨actor, env.now⟩ lead criterion flag value notes s = .ok (r, s')) :
      Writes env s (.setFlag actor flag lead criterion value notes) s'
  | refresh {caller : Caller} {pipeline window : Value} {now : Instant} {r : Int × List Reading} {s' : Store}
      (done : HealthSummary.refresh window pipeline now s = .ok (r, s')) :
      Writes env s (.healthSummary caller pipeline) s'
  | entries {k : Command} {n : Nat} {s' : Store} (effect : k.effect ≠ .quiet) (steps : s.Steps k.effect n s') :
      Writes env s k s'

section

variable {env : Environment} {base : Store}

theorem turns_base {op : Operation Value} (k : Command)
    (h : Turns op (·.store = base) (·.store = base)) :
    Turns op (·.store = base) fun s => s.store = base ∨ Writes env base k s.store :=
  h.mono (fun _ h => h) fun _ h => .inl h

theorem turns_loadChecks_base (stage : Int) : Turns (loadChecks stage) (·.store = base) (·.store = base) := by
  constructor
  intro s h
  rw [loadChecks_store]
  exact h

theorem turns_quiet (k : Command) (env : Environment) (hk : k.isService) (hquiet : k.effect = .quiet) :
    Turns (k.run env) (·.store = base) fun s => s.store = base ∨ Writes env base k s.store := by
  cases k with
  | createLead values =>
    have h : Turns ((createLead values).run env) (·.store = base) _ := turns_commit_base
    apply h.mono (fun _ h => h)
    intro s' h'
    apply h'.imp_right
    rintro ⟨v, hv⟩
    obtain ⟨l, s'', hl, hread⟩ := Transaction.bind_eq_ok.mp hv
    obtain ⟨-, rfl⟩ := Transaction.reading_eq_ok.mp hread
    exact .createLead hl
  | createPipeline actor data =>
    unfold run runIn
    dsimp only
    rw [Administration.createPipeline_eq]
    apply turns_commit_bind_base
    . exact fun _ _ h => .createPipeline h
    . exact fun _ _ => turns_map turns_get
  | addStage actor pipeline data =>
    unfold run runIn
    dsimp only
    rw [Administration.addStage_eq, bind_assoc]
    apply turns_reading_base fun _ h => .inl h
    intro p hp
    apply turns_commit_bind_base
    . exact fun _ _ h => .addStage hp h
    . exact fun _ _ => turns_map turns_get
  | addCriterion actor stage data =>
    unfold run runIn
    dsimp only
    rw [Administration.addCriterion_eq, bind_assoc]
    apply turns_reading_base fun _ h => .inl h
    intro target ht
    rw [bind_assoc]
    apply turns_commit_bind_base
    . exact fun _ _ h => .addCriterion ht h
    . intro I c
      exact turns_map (turns_map ⟨fun _ h => h⟩)
  | updateCriterion actor criterion data shared =>
    unfold run runIn
    dsimp only
    rw [Administration.updateCriterion_eq, bind_assoc]
    apply turns_reading_base fun _ h => .inl h
    intro c hc
    rw [bind_assoc]
    apply turns_commit_bind_base
    . exact fun _ _ h => .updateCriterion hc h
    . intro I updated
      exact turns_map (turns_map ⟨fun _ h => h⟩)
  | setFlag actor flag lead criterion value notes =>
    unfold run runIn
    dsimp only
    rw [Administration.setFlag_eq]
    apply turns_commit_bind_base
    . exact fun _ _ h => .setFlag h
    . exact fun _ _ => turns_pure _
  | healthSummary caller pipeline =>
    unfold run runIn
    dsimp only
    rw [Administration.healthSummary_eq, bind_assoc]
    apply turns_commit_bind_base
    . exact fun _ _ h => .refresh h
    . rintro I ⟨p, readings⟩
      exact turns_map (turns_map turns_reading)
  | validatePipeline pipeline => exact turns_base _ (turns_map turns_reading)
  | loadCriteria stage =>
    apply turns_base
    apply turns_map
    apply turns_reading_bind fun _ h => h
    intro target
    exact turns_loadChecks_base target.id
  | statesFor lead criteria => exact turns_base _ (turns_map turns_reading)
  | preview caller entry knowledge => exact turns_base _ (turns_map (Advancement.turns_preview turns_loadChecks_base))
  | getEntry caller entry => exact turns_base _ (turns_map turns_reading)
  | listActive caller pipeline => exact turns_base _ (turns_map turns_reading)
  | history entry => exact turns_base _ (turns_map turns_reading)
  | dump tables => exact turns_base _ (turns_map turns_reading)
  | hold owner key waiter wait =>
    apply turns_base
    unfold run runIn
    exact turns_taking fun _ _ h => h
  | holdMany owner keys wait =>
    apply turns_base
    unfold run runIn
    exact turns_taking fun _ _ h => h
  | release owner => exact turns_base _ (turns_releasing fun _ _ h => h)
  | writeAudit | addRow | changeRow => cases hk
  | enroll | enrollMany | advance | archive | transfer => cases hquiet

end

end Command

namespace Service

variable {s : Service}

theorem writes_of_after (hs : s.store.IsSound) (t : Turn) :
    (s.after t).store = s.store ∨ Command.Writes t.env s.store t.command (s.after t).store := by
  by_cases hquiet : t.command.effect = .quiet
  . exact (t.command.turns_quiet t.env t.isService hquiet).after s rfl
  . obtain ⟨n, hsteps, -⟩ := exists_steps hs t
    exact .inr (.entries hquiet hsteps)

end Service

end StageGate
