import StageGate.Proofs.Cache
import StageGate.Proofs.Plans

/-!
This module contains that moves and archivings of different entries do not touch each other, whichever of
them is first, unless one enters a stage with limited room that the other leaves or enters.
-/

namespace StageGate

/-! ## The store with one entry written -/

namespace Store

theorem require_congr {α : Type} {resource : String} {row? row?' : Int → Option α} {id : Value}
    (h : ∀ v n, identity id = .ok v → rowId? v = .ok (some n) → row?' n = row? n) :
    require resource row?' id = require resource row? id := by
  unfold require seek
  cases hv : identity id with
  | error f => rfl
  | ok v =>
    rw [ok_bind, ok_bind]
    cases hn : rowId? v with
    | error f => rfl
    | ok n? =>
      rw [ok_bind, ok_bind]
      cases n? with
      | none => rfl
      | some n => rw [Option.bind_some, Option.bind_some, h v n hv hn]

theorem entryRow?_putEntry (s : Store) (x : Entry) (n : Int) :
    (s.putEntry x).entryRow? n = (s.entryRow? n).map fun e => if e.id = x.id then x else e := by
  unfold entryRow? putEntry
  rw [List.find?_map]
  congr 1
  apply congrArg (List.find? · s.entries)
  funext e
  dsimp only [Function.comp_apply]
  split
  . next h => rw [h]
  . rfl

end Store

namespace Written

variable {s : Store} {w : Written}

theorem entry_onto {m : Value} (h : ∀ e, s.entry m = .ok e → e.id ≠ w.entry.id) : (w.onto s).entry m = s.entry m := by
  apply Store.require_congr
  intro v n hv hn
  have hput : (w.onto s).entryRow? n = (s.putEntry w.entry).entryRow? n := rfl
  rw [hput, Store.entryRow?_putEntry]
  cases hrow : s.entryRow? n with
  | none => rfl
  | some e =>
    have hentry : s.entry m = .ok e := by
      unfold Store.entry Store.require Store.seek
      simp only [hv, hn, ok_bind, Option.bind_some, hrow]
      rfl
    rw [Option.map_some, if_neg (h e hentry)]

theorem occupancy_onto {f : Entry} {stage : Int} (hs : s.IsSound) (hf : f ∈ s.entries) (hid : w.entry.id = f.id)
    (hold : ¬(f.stage = stage ∧ f.isActive)) (hnew : ¬(w.entry.stage = stage ∧ w.entry.isActive)) :
    (w.onto s).occupancy stage = s.occupancy stage := by
  have h := Store.occupancy_putEntry hs.entryIds hf hid stage
  unfold onto
  rw [Store.occupancy_addAudit]
  simp only [Bool.and_eq_true, decide_eq_true_eq, hold, hnew, ↓reduceIte] at h
  exact h

end Written

/-! ## What moves and archivings look at -/

/-- The entry that a move or an archiving is about. -/
def Command.subject? : Command → Option Value
  | .advance _ entry .. | .archive _ entry _ => some entry
  | _ => none

/-- The stage that a move is to enter. -/
def Command.aim? (s : Store) : Command → Option Stage
  | .advance _ _ stage _ _ => (Store.seek s.stage? stage).toOption.join
  | _ => none

namespace Advancement

variable {c : Call} {s : Store} {m target : Value} {k : Knowledge} {note : Value} {w : Written}

theorem resolveTarget_onto {e : Entry}
    (hroom : ∀ stage, Store.seek s.stage? target = .ok (some stage) → stage.capacity?.isSome →
      (w.onto s).occupancy stage.id = s.occupancy stage.id) :
    resolveTarget e target (w.onto s) = resolveTarget e target s := by
  have hstage : (w.onto s).stage? = s.stage? := rfl
  have hpipeline : (w.onto s).pipeline? = s.pipeline? := rfl
  unfold resolveTarget
  rw [hstage, hpipeline]
  apply bind_congr
  intro current
  apply bind_congr
  intro p
  cases hseek : Store.seek s.stage? target with
  | error f => rfl
  | ok found =>
    dsimp only
    rw [ok_bind, ok_bind]
    cases hfilter : found.filter (·.pipeline = e.pipeline) with
    | none => rfl
    | some stage =>
      obtain ⟨hfound, -⟩ := Option.filter_eq_some_iff.mp hfilter
      apply bind_congr
      intro reason?
      cases reason? with
      | some reason => rfl
      | none =>
        dsimp only
        cases hcapacity : stage.capacity? with
        | none => rfl
        | some limit =>
          rw [hfound] at hseek
          dsimp only
          rw [hroom stage hseek (by rw [hcapacity]; rfl)]

theorem cappedStage?_onto : cappedStage? target (w.onto s) = cappedStage? target s :=
  rfl

theorem heldPlan_onto {e : Entry}
    (hroom : ∀ stage, Store.seek s.stage? target = .ok (some stage) → stage.capacity?.isSome →
      (w.onto s).occupancy stage.id = s.occupancy stage.id) :
    heldPlan c e target k note (w.onto s) = heldPlan c e target k note s := by
  unfold heldPlan
  rw [resolveTarget_onto hroom]
  rfl

theorem advancePlan_onto (h : ∀ e, s.entry m = .ok e → e.id ≠ w.entry.id)
    (hroom : ∀ stage, Store.seek s.stage? target = .ok (some stage) → stage.capacity?.isSome →
      (w.onto s).occupancy stage.id = s.occupancy stage.id) :
    advancePlan c m target k note (w.onto s) = advancePlan c m target k note s := by
  unfold advancePlan
  rw [Written.entry_onto h, cappedStage?_onto]
  simp only [heldPlan_onto hroom]

theorem of_movePlan {e : Entry} {current T : Stage} {verdict : Verdict} {sla : Health} {o : Plan Move}
    (h : movePlan c e current T verdict sla note s = .ok o) (hw : o.written? = some w) : IsPlaced c e T w.entry := by
  unfold movePlan at h
  simp only [bind_eq_ok, pure, Except.pure, Except.ok.injEq] at h
  obtain ⟨new, hplaced, isForward, -, actor, -, view, -, rfl⟩ := h
  cases hw
  exact isPlaced_of_placed hplaced

theorem of_heldPlan {e : Entry} {o : Plan Move} (h : heldPlan c e target k note s = .ok o)
    (hw : o.written? = some w) : ∃ T, w.entry.id = e.id ∧ Store.seek s.stage? target = .ok (some T) ∧
      w.entry.stage = T.id := by
  unfold heldPlan at h
  split at h
  . obtain ⟨_, h, -⟩ := bind_eq_ok.mp h
    cases h
  obtain ⟨T, hT, h⟩ := bind_eq_ok.mp h
  obtain ⟨current, -, h⟩ := bind_eq_ok.mp h
  obtain ⟨⟨verdict, sla⟩, -, h⟩ := bind_eq_ok.mp h
  obtain ⟨-, -, -, -, hfound, -⟩ := of_resolveTarget hT
  dsimp only at h
  split at h
  . have hplaced := of_movePlan h hw
    exact ⟨T, hplaced.id, hfound, hplaced.stage⟩
  . obtain ⟨view, -, h⟩ := bind_eq_ok.mp h
    cases h
    cases hw

theorem of_advancePlan {o : Plan Move} (h : advancePlan c m target k note s = .ok o) (hw : o.written? = some w) :
    ∃ e T, s.entry m = .ok e ∧ w.entry.id = e.id ∧ Store.seek s.stage? target = .ok (some T) ∧
      w.entry.stage = T.id := by
  unfold advancePlan at h
  simp only [bind_eq_ok] at h
  obtain ⟨e, he, left, -, _, -, stage?, -, h⟩ := h
  have hheld : heldPlan c e target k note s = .ok o := by
    cases stage? with
    | none => exact h
    | some stage =>
      obtain ⟨_, -, h⟩ := bind_eq_ok.mp h
      exact h
  exact ⟨e, (of_heldPlan hheld hw).imp fun T hT => ⟨he, hT⟩⟩

end Advancement

namespace Closing

variable {c : Call} {s : Store} {m reason : Value} {w : Written}

theorem archivePlan_onto (h : ∀ e, s.entry m = .ok e → e.id ≠ w.entry.id) :
    archivePlan c m reason (w.onto s) = archivePlan c m reason s := by
  unfold archivePlan
  rw [Written.entry_onto h]
  rfl

theorem of_archivePlan {o : Plan EntryView} (h : archivePlan c m reason s = .ok o) (hw : o.written? = some w) :
    ∃ e, s.entry m = .ok e ∧ w.entry.id = e.id ∧ ¬w.entry.isActive := by
  unfold archivePlan at h
  simp only [bind_eq_ok, pure, Except.pure, Except.ok.injEq] at h
  obtain ⟨e, he, -, -, -, -, stage, -, kept, -, actor, -, view, -, rfl⟩ := h
  cases hw
  exact ⟨e, he, rfl, by simp [Entry.isActive, Entry.archive]⟩

end Closing

/-! ## Commands that are carried out as planned -/

namespace Plan

def writes? {α : Type} (p : Except Fault (Plan α)) : Option Written :=
  p.toOption.bind (·.written?)

/-- The store after what is planned. -/
def left {α : Type} (p : Except Fault (Plan α)) (s : Store) : Store :=
  (writes? p).elim s (·.onto s)

end Plan

/--
A plan for a command about an entry. It is carried out as it is made, writes this entry, and is blind to what is
written about any other one, apart from the room in the stage that is to be entered.
-/
structure Command.IsPlanned (env : Environment) (k : Command) (m : Value)
    (plan : Store → Except Fault (Plan Value)) : Prop where
  runs : ∀ s : Service, s.IsTrusty → s.store.IsSound → s.locks.table.IsFree →
    (k.run env s).1 = (plan s.store).map (·.answer) ∧ (k.run env s).2.store = Plan.left (plan s.store) s.store ∧
      (k.run env s).2.locks = s.locks
  writes : ∀ s w, Plan.writes? (plan s) = some w → ∃ e, s.entry m = .ok e ∧ w.entry.id = e.id ∧
    (w.entry.isActive → ∃ T, k.aim? s = some T ∧ w.entry.stage = T.id)
  blind : ∀ (s : Store) (w : Written), (∀ e, s.entry m = .ok e → e.id ≠ w.entry.id) →
    (∀ T, k.aim? s = some T → T.capacity?.isSome → (w.onto s).occupancy T.id = s.occupancy T.id) →
    plan (w.onto s) = plan s

theorem Operation.Does.runs {α : Type} {op : Operation α} {s : Service} {t : Transaction α}
    {p : Except Fault (Plan α)} (h : Does op s t) (ht : t s.store = Plan.outcome p s.store)
    (hlocks : (op s).2.locks = s.locks) (f : α → Value) :
    let ran := (do return f (← op) : Operation Value) s
    ran.1 = (p.map (·.map f)).map (·.answer) ∧ ran.2.store = Plan.left (p.map (·.map f)) s.store ∧
      ran.2.locks = s.locks := by
  cases p with
  | error e =>
    obtain ⟨after, hop, hstore⟩ := h.of_error ht
    rw [hop] at hlocks
    dsimp only
    rw [bind_of_error hop]
    exact ⟨rfl, hstore, hlocks⟩
  | ok o =>
    obtain ⟨after, hop, hstore⟩ := h.of_ok ht
    rw [hop] at hlocks
    dsimp only
    rw [bind_of_ok hop]
    exact ⟨rfl, hstore, hlocks⟩

theorem Plan.of_writes?_map {α β : Type} {p : Except Fault (Plan α)} {f : α → β} {w : Written}
    (h : writes? (p.map (·.map f)) = some w) : ∃ o, p = .ok o ∧ o.written? = some w := by
  cases p with
  | error e => cases h
  | ok o => exact ⟨o, rfl, h⟩

namespace Command

variable {env : Environment} {caller : Caller} {m : Value}

theorem isPlanned_archive {reason : Value} : (archive caller m reason).IsPlanned env m
    fun s => (Closing.archivePlan (run.call env caller) m reason s).map (·.map EntryView.toValue) where
  runs := by
    intro s _ _ hfree
    have hlocks := (Closing.returns_archive (run.call env caller) m reason s.locks).after s rfl
    exact (Closing.does_closing hfree m reason).runs (Closing.closing_eq _ _ _ _) hlocks _
  writes := by
    intro s w hw
    obtain ⟨o, ho, hw⟩ := Plan.of_writes?_map hw
    obtain ⟨e, he, hid, hclosed⟩ := Closing.of_archivePlan ho hw
    exact ⟨e, he, hid, fun hactive => absurd hactive hclosed⟩
  blind := by
    intro s w hne _
    rw [Closing.archivePlan_onto hne]

theorem isPlanned_advance {target note : Value} {k : Advancement.Knowledge} :
    (advance caller m target k note).IsPlanned env m fun s =>
      (Advancement.advancePlan (run.call env caller) m target k note s).map (·.map Advancement.Move.toValue) where
  runs := by
    intro s htrusty hs hfree
    have hlocks := (Advancement.returns_advance (run.call env caller) m target k note s.locks).after s rfl
    exact (Advancement.does_moving htrusty hfree m target k note).runs (Advancement.moving_eq hs m target k) hlocks _
  writes := by
    intro s w hw
    obtain ⟨o, ho, hw⟩ := Plan.of_writes?_map hw
    obtain ⟨e, T, he, hid, hT, hstage⟩ := Advancement.of_advancePlan ho hw
    exact ⟨e, he, hid, fun _ => ⟨T, by simp [aim?, hT, Except.toOption], hstage⟩⟩
  blind := by
    intro s w hne hroom
    rw [Advancement.advancePlan_onto hne]
    intro T hT hcapacity
    exact hroom T (by simp [aim?, hT, Except.toOption]) hcapacity

theorem exists_plan {k : Command} (h : k.subject? = some m) (env : Environment) : ∃ plan, k.IsPlanned env m plan := by
  cases k <;> simp only [subject?, Option.some.injEq, reduceCtorEq] at h <;> subst h
  case advance => exact ⟨_, isPlanned_advance⟩
  case archive => exact ⟨_, isPlanned_archive⟩

end Command

/-! ## Two commands in either order -/

/-- A row of the audit but for its number. -/
def AuditRow.unnumbered (r : AuditRow) : AuditRow :=
  { r with id := 0 }

/-- Two stores that both come from a third one, and differ in nothing but the order of what was noted since then. -/
structure Store.AreTwins (base s s' : Store) : Prop where
  rest : s' = { s with audit := s'.audit }
  rows : ∃ new new', s.audit = base.audit ++ new ∧ s'.audit = base.audit ++ new' ∧
    new'.map (·.id) = new.map (·.id) ∧ (new'.map AuditRow.unnumbered).Perm (new.map AuditRow.unnumbered)

theorem Store.areTwins_refl {base s : Store} {new : List AuditRow} (h : s.audit = base.audit ++ new) :
    AreTwins base s s :=
  ⟨rfl, new, new, h, h, rfl, List.Perm.refl _⟩

theorem Written.entries_onto_onto {w w' : Written} (s : Store) (hne : w.entry.id ≠ w'.entry.id) :
    (w.onto (w'.onto s)).entries = (w'.onto (w.onto s)).entries := by
  have hput : ∀ (v : Written) (r : Store),
      (v.onto r).entries = r.entries.map fun x => if x.id = v.entry.id then v.entry else x := fun _ _ => rfl
  simp only [hput, List.map_map]
  apply List.map_congr_left
  intro x _
  by_cases h : x.id = w.entry.id
  . simp [h, hne]
  . by_cases h' : x.id = w'.entry.id
    . simp [h', hne.symm]
    . simp [h, h']

theorem Written.areTwins_onto {w w' : Written} (s : Store) (hne : w.entry.id ≠ w'.entry.id) :
    s.AreTwins (w'.onto (w.onto s)) (w.onto (w'.onto s)) where
  rest := by
    have hrest : ∀ (v : Written) (r : Store), v.onto r = { r with
        entries := (v.onto r).entries, audit := (v.onto r).audit } := fun _ _ => rfl
    have hentries := entries_onto_onto s hne
    rw [hrest w (w'.onto s), hentries]
    rfl
  rows := by
    have haudit : ∀ (v : Written) (r : Store), (v.onto r).audit = r.audit ++ [v.row r] := fun _ _ => rfl
    refine ⟨[w.row s, w'.row (w.onto s)], [w'.row s, w.row (w'.onto s)], ?_, ?_, ?_, List.Perm.swap _ _ _⟩
    . rw [haudit, haudit, List.append_assoc, List.singleton_append]
    . rw [haudit, haudit, List.append_assoc, List.singleton_append]
    . have hid : ∀ (v : Written) (r : Store), (v.row r).id = Store.nextId (r.audit.map (·.id)) := fun _ _ => rfl
      simp only [List.map_cons, List.map_nil, hid, haudit, List.map_append]

/-- Whether a command enters a stage with limited room that the entry of another one is in, or that it enters, too. -/
def Command.Crowds (s : Store) (k l : Command) : Prop :=
  ∃ T, k.aim? s = some T ∧ T.capacity?.isSome ∧
    ((∃ n f, l.subject? = some n ∧ s.entry n = .ok f ∧ f.isActive ∧ f.stage = T.id) ∨
      ∃ T', l.aim? s = some T' ∧ T'.id = T.id)

namespace Command.IsPlanned

variable {env env' : Environment} {k l : Command} {m n : Value} {p q : Store → Except Fault (Plan Value)} {s : Store}

/-- A plan is as it was after another one is carried out. -/
theorem eq_left (hk : k.IsPlanned env m p) (hl : l.IsPlanned env' n q) (hs : s.IsSound) (hm : k.subject? = some m)
    (hapart : ∀ e f, s.entry m = .ok e → s.entry n = .ok f → e.id ≠ f.id) (hroom : ¬l.Crowds s k) :
    q (Plan.left (p s) s) = q s := by
  unfold Plan.left
  cases hw : Plan.writes? (p s) with
  | none => rfl
  | some w =>
    obtain ⟨e, he, hid, hstage⟩ := hk.writes s w hw
    apply hl.blind
    . intro f hf heq
      exact hapart e f he hf (hid.symm.trans heq.symm)
    . intro T hT hcapacity
      apply w.occupancy_onto hs (Store.mem_of_entry he) hid
      . rintro ⟨hin, hactive⟩
        exact hroom ⟨T, hT, hcapacity, .inl ⟨m, e, hm, he, hactive, hin⟩⟩
      . rintro ⟨hin, hactive⟩
        obtain ⟨T', hT', hstage⟩ := hstage hactive
        exact hroom ⟨T, hT, hcapacity, .inr ⟨T', hT', hstage.symm.trans hin⟩⟩

theorem areTwins (hk : k.IsPlanned env m p) (hl : l.IsPlanned env' n q)
    (hapart : ∀ e f, s.entry m = .ok e → s.entry n = .ok f → e.id ≠ f.id) :
    s.AreTwins (Plan.left (q s) (Plan.left (p s) s)) (Plan.left (p s) (Plan.left (q s) s)) := by
  unfold Plan.left
  cases hp : Plan.writes? (p s) with
  | none =>
    cases hq : Plan.writes? (q s) with
    | none => exact Store.areTwins_refl (List.append_nil _).symm
    | some w' => exact Store.areTwins_refl rfl
  | some w =>
    cases hq : Plan.writes? (q s) with
    | none => exact Store.areTwins_refl rfl
    | some w' =>
      obtain ⟨e, he, hid, -⟩ := hk.writes s w hp
      obtain ⟨f, hf, hid', -⟩ := hl.writes s w' hq
      apply Written.areTwins_onto
      rw [hid, hid']
      exact hapart e f he hf

end Command.IsPlanned

namespace Service

/--
Moves and archivings of different entries can be made in either order: each of them answers the same, and the stores
that they leave are the same but for the numbers of what they note.
-/
theorem reached_commute (ts : List Turn) (t u : Turn) {m n : Value} (hm : t.command.subject? = some m)
    (hn : u.command.subject? = some n) (hfree : (reached ts).locks.table.IsFree)
    (hapart : ∀ e f, (reached ts).store.entry m = .ok e → (reached ts).store.entry n = .ok f → e.id ≠ f.id)
    (hroom : ¬t.command.Crowds (reached ts).store u.command)
    (hroom' : ¬u.command.Crowds (reached ts).store t.command) :
    let s := reached ts
    (s.after u).answer t = s.answer t ∧ (s.after t).answer u = s.answer u ∧
      ((s.after u).after t).store.entries = ((s.after t).after u).store.entries ∧
      s.store.AreTwins ((s.after t).after u).store ((s.after u).after t).store := by
  intro s
  obtain ⟨p, hp⟩ := Command.exists_plan hm t.env
  obtain ⟨q, hq⟩ := Command.exists_plan hn u.env
  have hs : s.store.IsSound := isSound_reached ts
  obtain ⟨hanswer, hstore, hlocks⟩ := hp.runs s (isTrusty_reached ts) hs hfree
  obtain ⟨hanswer', hstore', hlocks'⟩ := hq.runs s (isTrusty_reached ts) hs hfree
  have hp' : p (s.after u).store = p s.store := by
    rw [after, hstore']
    exact hq.eq_left hp hs hn (fun f e hf he => (hapart e f he hf).symm) hroom
  have hq' : q (s.after t).store = q s.store := by
    rw [after, hstore]
    exact hp.eq_left hq hs hm hapart hroom'
  have htrusty : (s.after u).IsTrusty := reached_concat ts u ▸ isTrusty_reached (ts ++ [u])
  have htrusty' : (s.after t).IsTrusty := reached_concat ts t ▸ isTrusty_reached (ts ++ [t])
  have hsound : (s.after u).store.IsSound := reached_concat ts u ▸ isSound_reached (ts ++ [u])
  have hsound' : (s.after t).store.IsSound := reached_concat ts t ▸ isSound_reached (ts ++ [t])
  obtain ⟨hsecond, hend, -⟩ := hp.runs (s.after u) htrusty hsound (by rwa [after, hlocks'])
  obtain ⟨hsecond', hend', -⟩ := hq.runs (s.after t) htrusty' hsound' (by rwa [after, hlocks])
  rw [hp'] at hsecond hend
  rw [hq'] at hsecond' hend'
  have htwins : s.store.AreTwins ((s.after t).after u).store ((s.after u).after t).store := by
    have h := hp.areTwins hq hapart
    rwa [← hstore, ← hstore', ← after, ← after, ← hend, ← hend'] at h
  refine ⟨hsecond.trans hanswer.symm, hsecond'.trans hanswer'.symm, ?_, htwins⟩
  rw [htwins.rest]

def deskmates : List Turn :=
  -- Two leads in the first of three stages. There is room for one in the second.
  let stages : Value := .list [.object [("name", .text "New")], .object [("name", .text "Demo"), ("wip_limit", .int 1)],
    .object [("name", .text "Won")]]
  Turn.allIn ⟨⟨63908038800000000⟩, .int 1, .int 0⟩
    [.createLead [("name", .text "Ada")],
      .createLead [("name", .text "Bob")],
      .createPipeline (.text "system") (.object [("name", .text "Sales"), ("stages", stages)]),
      .enroll ⟨.text "system", none, .null⟩ (.int 1) (.int 1) .null,
      .enroll ⟨.text "system", none, .null⟩ (.int 2) (.int 1) .null] (by decide)

def promotion (entry : Int) : Turn :=
  ⟨⟨⟨63908038800000000⟩, .int 1, .int 0⟩,
    .advance ⟨.text "Eve", some ⟨63908042400000000⟩, .null⟩ (.int entry) (.int 2) ⟨.null, .null⟩ .null, rfl⟩

def withdrawal (entry : Int) : Turn :=
  ⟨⟨⟨63908038800000000⟩, .int 1, .int 0⟩,
    .archive ⟨.text "Dan", some ⟨63908046000000000⟩, .null⟩ (.int entry) (.text "no budget"), rfl⟩

theorem reached_commute_deskmates :
    let s := reached deskmates
    (s.answer (promotion 1)).isOk ∧ (s.answer (withdrawal 2)).isOk ∧
      (s.after (withdrawal 2)).answer (promotion 1) = s.answer (promotion 1) ∧
      (s.after (promotion 1)).answer (withdrawal 2) = s.answer (withdrawal 2) ∧
      s.store.AreTwins ((s.after (promotion 1)).after (withdrawal 2)).store
        ((s.after (withdrawal 2)).after (promotion 1)).store := by
  intro s
  have hnone : s.locks.table = [] := by decide +kernel
  have hfree : s.locks.table.IsFree := by simp [hnone, LockTable.IsFree]
  have hfirst : (s.store.entry (.int 1)).toOption.all (·.id = 1) := by decide +kernel
  have hsecond : (s.store.entry (.int 2)).toOption.all (fun f => f.id = 2 ∧ f.stage = 1) := by decide +kernel
  have haim : ((promotion 1).command.aim? s.store).all (·.id = 2) := by decide +kernel
  have hapart : ∀ e f, s.store.entry (.int 1) = .ok e → s.store.entry (.int 2) = .ok f → e.id ≠ f.id := by
    intro e f he hf
    have he : e.id = 1 := by simpa [he, Except.toOption] using hfirst
    have hf : f.id = 2 ∧ f.stage = 1 := by simpa [hf, Except.toOption] using hsecond
    omega
  have hroom : ¬(promotion 1).command.Crowds s.store (withdrawal 2).command := by
    rintro ⟨T, hT, -, ⟨n, f, hn, hf, -, hstage⟩ | ⟨T', hT', -⟩⟩
    . cases hn
      have hf : f.id = 2 ∧ f.stage = 1 := by simpa [hf, Except.toOption] using hsecond
      have hT : T.id = 2 := by simpa [hT] using haim
      omega
    . cases hT'
  have hroom' : ¬(withdrawal 2).command.Crowds s.store (promotion 1).command := by
    rintro ⟨T, hT, -⟩
    cases hT
  obtain ⟨ht, hu, -, htwins⟩ := reached_commute deskmates (promotion 1) (withdrawal 2) rfl rfl
    hfree hapart hroom hroom'
  exact ⟨by decide +kernel, by decide +kernel, ht, hu, htwins⟩

/-- There is room for only one of two who enter the same stage. -/
example : let s := reached deskmates
    (s.answer (promotion 1)).isOk ∧ ¬((s.after (promotion 2)).answer (promotion 1)).isOk := by
  decide +kernel

end Service

end StageGate
