import StageGate.Proofs.Counting
import StageGate.Proofs.Dates
import StageGate.Proofs.Lineage

/-!
This module contains the history of an entry, which is all that the audit trail tells of it: the row that opened it,
its moves, each from the stage that the row before leaves it in, and the row that closed it, if it is closed.
-/

namespace StageGate

/-! ## What rows tell -/

namespace AuditRow

/-- The entry that a transfer opened, beside the one that it closed and that the row is filed under. -/
def opened? (r : AuditRow) : Option Int :=
  match r.change with
  | .transferred _ destination _ => some destination.entry
  | _ => none

def concerns (r : AuditRow) (id : Int) : Bool :=
  r.subject = .entry && (r.subjectId = toString id || r.opened? = some id)

/-- A row that opens an entry in a stage, as an enrollment or as what another entry is transferred to. -/
inductive Opens (r : AuditRow) (id : Int) (source : Option Int) (stage : Int) : Prop where
  | enrolled {first : StageRef} {bulk : Bool} (action : r.action = .enroll) (change : r.change = .enrolled first bulk)
      (filed : r.subjectId = toString id) (origin : source = none) (there : first.id = stage)
  | transferred {closed opened : TransferEnd} {reason : Value} (action : r.action = .transfer)
      (change : r.change = .transferred closed opened reason) (filed : r.subjectId = toString closed.entry)
      (origin : source = some closed.entry) (apart : closed.entry ≠ id) (entry : opened.entry = id)
      (there : opened.stage.id = stage)

/-- A row that moves an entry from a stage to another one, and completes it or leaves it active. -/
structure Moves (r : AuditRow) (id old new : Int) (status : Status) : Prop where
  filed : r.subjectId = toString id
  change : ∃ here target sla warnings,
    r.change = .moved here target status sla warnings ∧ here.id = old ∧ target.id = new
  action : r.action = .complete ∧ status = .completed ∨
    (r.action = .advance ∨ r.action = .regress) ∧ status = .active

/-- A row that archives an entry in the stage that it is in, on its own or because it is transferred. -/
inductive Closes (r : AuditRow) (id stage : Int) : Prop where
  | archived {here : StageRef} {reason : Value} (action : r.action = .archive)
      (change : r.change = .archived here reason) (filed : r.subjectId = toString id) (there : here.id = stage)
  | transferred {closed opened : TransferEnd} {reason : Value} (action : r.action = .transfer)
      (change : r.change = .transferred closed opened reason) (filed : r.subjectId = toString id)
      (entry : closed.entry = id) (there : closed.stage.id = stage)

/-- Whether a row says that an entry is closed: archived, completed or transferred away. -/
def Ends (r : AuditRow) (id : Int) : Prop :=
  r.subjectId = toString id ∧ (r.action = .archive ∨ r.action = .complete ∨ r.action = .transfer)

/-- Rows that open an entry and follow it from stage to stage; when it is closed there are no more. -/
inductive Trail (id : Int) (source : Option Int) : List AuditRow → Int → Status → Prop where
  | opened {r : AuditRow} {stage : Int} (opens : r.Opens id source stage) : Trail id source [r] stage .active
  | moved {rows : List AuditRow} {r : AuditRow} {old new : Int} {status : Status}
      (before : Trail id source rows old .active) (moves : r.Moves id old new status) :
      Trail id source (rows ++ [r]) new status
  | closed {rows : List AuditRow} {r : AuditRow} {stage : Int} (before : Trail id source rows stage .active)
      (closes : r.Closes id stage) : Trail id source (rows ++ [r]) stage .archived

variable {r : AuditRow} {id old new stage : Int} {source : Option Int} {status : Status} {rows : List AuditRow}

theorem toString_injective {m n : Int} (h : toString m = toString n) : m = n := by
  have hread := congrArg String.toInt? h
  simpa using hread

theorem concerns_iff {m : Int} (hsubject : r.subject = .entry) (hfiled : r.subjectId = toString m) :
    r.concerns id ↔ id = m ∨ r.opened? = some id := by
  have hid : toString m = toString id ↔ id = m := by
    constructor
    . intro h
      exact (toString_injective h).symm
    . rintro rfl
      rfl
  unfold concerns
  rw [hsubject, hfiled, Bool.and_eq_true, Bool.or_eq_true, decide_eq_true_eq, decide_eq_true_eq, decide_eq_true_eq, hid]
  exact and_iff_right rfl

/-- A row that opens nothing is about the entry that it is filed under. -/
theorem concerns_iff_eq {m : Int} (hsubject : r.subject = .entry) (hfiled : r.subjectId = toString m)
    (hopened : r.opened? = none) : r.concerns id ↔ id = m := by
  rw [concerns_iff hsubject hfiled, hopened]
  simp

theorem Opens.not_ends (h : r.Opens id source stage) : ¬r.Ends id := by
  rintro ⟨hfiled, haction⟩
  cases h with
  | enrolled action => simp [action] at haction
  | transferred action _ filed _ apart =>
    rw [filed] at hfiled
    exact apart (toString_injective hfiled)

theorem Moves.ends_iff (h : r.Moves id old new status) : r.Ends id ↔ status ≠ .active := by
  unfold Ends
  rcases h.action with ⟨haction, rfl⟩ | ⟨haction | haction, rfl⟩ <;> simp [haction, h.filed]

theorem Closes.ends (h : r.Closes id stage) : r.Ends id := by
  cases h with
  | archived action _ filed => exact ⟨filed, .inl action⟩
  | transferred action _ filed => exact ⟨filed, .inr (.inr action)⟩

namespace Trail

theorem exists_opening (h : Trail id source rows stage status) :
    ∃ r rest first, rows = r :: rest ∧ r.Opens id source first := by
  induction h with
  | opened opens => exact ⟨_, [], _, rfl, opens⟩
  | moved _ _ ih | closed _ _ ih =>
    obtain ⟨r, rest, first, rfl, hopens⟩ := ih
    exact ⟨r, _, first, List.cons_append, hopens⟩

/-- Nothing comes after the row that closes an entry, and there is one if and only if the entry is closed. -/
theorem ends_iff (h : Trail id source rows stage status) :
    ∀ r ∈ rows, r.Ends id ↔ rows.getLast? = some r ∧ status ≠ .active := by
  -- What is true of the rows before the last one, while the entry was still active.
  have hconcat {rows : List AuditRow} {r : AuditRow} {status : Status} (hbefore : ∀ x ∈ rows, ¬x.Ends id)
      (hr : r.Ends id ↔ status ≠ .active) :
      ∀ x ∈ rows ++ [r], x.Ends id ↔ (rows ++ [r]).getLast? = some x ∧ status ≠ .active := by
    intro x hx
    rw [List.getLast?_concat, Option.some.injEq]
    rw [List.mem_append, List.mem_singleton] at hx
    rcases hx with hx | rfl
    . constructor
      . intro hends
        exact absurd hends (hbefore x hx)
      . rintro ⟨rfl, hstatus⟩
        exact hr.mpr hstatus
    . simpa using hr
  have hnone {rows : List AuditRow} (h : ∀ r ∈ rows, r.Ends id ↔ rows.getLast? = some r ∧ Status.active ≠ .active) :
      ∀ x ∈ rows, ¬x.Ends id := by
    intro x hx hends
    exact ((h x hx).mp hends).2 rfl
  induction h with
  | opened opens =>
    intro r hr
    rw [List.mem_singleton.mp hr]
    simp [opens.not_ends]
  | moved _ moves ih => exact hconcat (hnone ih) moves.ends_iff
  | closed _ closes ih => exact hconcat (hnone ih) (by simp [closes.ends])

end Trail

end AuditRow

/-! ## Trails in a store -/

open Transaction

namespace Store

/-- What the audit trail tells of an entry, in the order in which it was written. -/
def rowsAbout (s : Store) (id : Int) : List AuditRow :=
  s.audit.filter (·.concerns id)

/-- What a row tells of an entry that is there when it is written. -/
inductive Told (s : Store) (r : AuditRow) (e' : Entry) : Prop where
  | nothing {e : Entry} (mem : e ∈ s.entries) (becomes : e.Becomes e') (stage : e'.stage = e.stage)
      (status : e'.status = e.status) (concerns : r.concerns e'.id = false)
  | moved {e : Entry} (held : s.Holds e) (becomes : e.Becomes e') (concerns : r.concerns e'.id)
      (moves : r.Moves e.id e.stage e'.stage e'.status)
  | closed {e : Entry} (held : s.Holds e) (becomes : e.Becomes e') (concerns : r.concerns e'.id)
      (closes : r.Closes e.id e.stage) (stage : e'.stage = e.stage) (status : e'.status = .archived)
  | opened (id : e'.id = nextId (s.entries.map (·.id))) (concerns : r.concerns e'.id) (status : e'.status = .active)
      (opens : r.Opens e'.id e'.transferredFrom e'.stage)

/-- Where a row about entries leads to, if it tells of a transfer. -/
def Routes (s : Store) (r : AuditRow) : Prop :=
  r.action = .transfer ∨ r.opened?.isSome → ∃ e ∈ s.entries, ∃ m, r.action = .transfer ∧ r.subjectId = toString m ∧
    r.opened? = some e.id ∧ e.transferredFrom = some m

structure IsChronicled (s : Store) : Prop where
  positive : ∀ e ∈ s.entries, 0 < e.id
  trails : ∀ e ∈ s.entries, AuditRow.Trail e.id e.transferredFrom (s.rowsAbout e.id) e.stage e.status
  known : ∀ r ∈ s.audit, ∀ id, r.concerns id → id ∈ s.entries.map (·.id)
  routes : ∀ r ∈ s.audit, r.subject = .entry → s.Routes r

theorem isChronicled_empty : empty.IsChronicled := by
  constructor <;> simp [empty]

theorem Routes.continues {s s' : Store} {r : AuditRow} (h : s.Routes r) (hc : s.Continues s') : s'.Routes r := by
  intro htransfer
  obtain ⟨e, he, m, haction, hfiled, hopened, horigin⟩ := h htransfer
  obtain ⟨e', he', hbecomes⟩ := hc e he
  refine ⟨e', he', m, haction, hfiled, ?_, ?_⟩
  . rw [hbecomes.id]
    exact hopened
  . rw [hbecomes.origin]
    exact horigin

theorem Continues.ids_subset {s s' : Store} (h : s.Continues s') :
    s.entries.map (·.id) ⊆ s'.entries.map (·.id) := by
  intro id hid
  obtain ⟨e, he, rfl⟩ := List.mem_map.mp hid
  obtain ⟨e', he', hbecomes⟩ := h e he
  rw [← hbecomes.id]
  exact List.mem_map_of_mem he'

theorem nextId_pos {ids : List Int} (h : ∀ i ∈ ids, 0 < i) : 0 < nextId ids := by
  unfold nextId
  cases hmax : ids.max? with
  | none => decide
  | some m =>
    have hm := h m (List.max?_mem hmax)
    rw [Option.getD_some]
    omega

theorem lt_of_fresh {s : Store} {e : Entry} {id : Int} (he : e ∈ s.entries) (hid : id = nextId (s.entries.map (·.id))) :
    e.id < id := by
  have hmem : e.id ∈ s.entries.map (·.id) := List.mem_map_of_mem he
  rw [hid]
  exact lt_nextId hmem

theorem action_of_isPlaced {s : Store} {c : Call} {e new : Entry} {target : Stage} {outcome : Advancement.MoveOutcome}
    (held : s.Holds e) (h : Advancement.IsPlaced c e target new) (ends : outcome = .completed ↔ ¬new.isActive) :
    outcome.action = .complete ∧ new.status = .completed ∨
      (outcome.action = .advance ∨ outcome.action = .regress) ∧ new.status = .active := by
  have hactive := Entry.isActive_iff.mp held.isActive
  rw [Entry.isActive_iff] at ends
  rcases h.status with ⟨hstatus, -⟩ | ⟨hstatus, -⟩
  . rw [hactive] at hstatus
    cases outcome with
    | completed => exact absurd hstatus (ends.mp rfl)
    | advanced | criteriaNotMet => exact .inr ⟨.inl rfl, hstatus⟩
    | regressed => exact .inr ⟨.inr rfl, hstatus⟩
  . have hcompleted : outcome = .completed := ends.mpr (by simp [hstatus])
    rw [hcompleted]
    exact .inl ⟨rfl, hstatus⟩

theorem told_self {s : Store} {r : AuditRow} {e : Entry} (he : e ∈ s.entries) (hr : ¬r.concerns e.id) : s.Told r e :=
  .nothing he (.refl e) rfl rfl (by simpa using hr)

namespace IsChronicled

variable {s s' : Store} {r : AuditRow}

theorem rowsAbout_of_fresh (h : s.IsChronicled) {id : Int} (hid : id = nextId (s.entries.map (·.id))) :
    s.rowsAbout id = [] := by
  unfold rowsAbout
  rw [List.filter_eq_nil_iff]
  intro r hr hconcerns
  have := lt_nextId (h.known r hr id hconcerns)
  omega

theorem rowsAbout_concat (haudit : s'.audit = s.audit ++ [r]) (id : Int) :
    s'.rowsAbout id = s.rowsAbout id ++ if r.concerns id then [r] else [] := by
  unfold rowsAbout
  rw [haudit, List.filter_append]
  cases hconcerns : r.concerns id <;> simp [hconcerns]

/-- Entries that stay as they are while nothing is written about entries. -/
theorem congr (h : s.IsChronicled) (hc : s.Continues s') {rs : List AuditRow} (haudit : s'.audit = s.audit ++ rs)
    (hrs : ∀ r ∈ rs, r.subject ≠ .entry)
    (hentries : ∀ e' ∈ s'.entries, ∃ e ∈ s.entries, e.Becomes e' ∧ e'.stage = e.stage ∧ e'.status = e.status) :
    s'.IsChronicled := by
  have hnone : ∀ r ∈ rs, ∀ id, ¬r.concerns id := by
    intro r hr id hconcerns
    simp only [AuditRow.concerns, Bool.and_eq_true, decide_eq_true_eq] at hconcerns
    exact hrs r hr hconcerns.1
  have hrows : ∀ id, s'.rowsAbout id = s.rowsAbout id := by
    intro id
    unfold rowsAbout
    rw [haudit, List.filter_append, List.filter_eq_nil_iff.mpr fun r hr => hnone r hr id, List.append_nil]
  constructor
  . intro e' he'
    obtain ⟨e, he, hbecomes, -⟩ := hentries e' he'
    rw [hbecomes.id]
    exact h.positive e he
  . intro e' he'
    obtain ⟨e, he, hbecomes, hstage, hstatus⟩ := hentries e' he'
    rw [hrows, hbecomes.id, hbecomes.origin, hstage, hstatus]
    exact h.trails e he
  . intro r hr id hconcerns
    rw [haudit, List.mem_append] at hr
    rcases hr with hr | hr
    . exact hc.ids_subset (h.known r hr id hconcerns)
    . exact absurd hconcerns (hnone r hr id)
  . intro r hr hsubject
    rw [haudit, List.mem_append] at hr
    rcases hr with hr | hr
    . exact (h.routes r hr hsubject).continues hc
    . exact absurd hsubject (hrs r hr)

/-- Entries of which a row tells what becomes of them. -/
theorem concat (h : s.IsChronicled) (hc : s.Continues s') (haudit : s'.audit = s.audit ++ [r])
    (htold : ∀ e' ∈ s'.entries, s.Told r e') (hknown : ∀ id, r.concerns id → id ∈ s'.entries.map (·.id))
    (hroutes : s'.Routes r) : s'.IsChronicled := by
  constructor
  . intro e' he'
    cases htold e' he' with
    | nothing mem becomes =>
      rw [becomes.id]
      exact h.positive _ mem
    | moved held becomes =>
      rw [becomes.id]
      exact h.positive _ held.mem
    | closed held becomes =>
      rw [becomes.id]
      exact h.positive _ held.mem
    | opened id =>
      rw [id]
      apply nextId_pos
      rw [List.forall_mem_map]
      exact h.positive
  . intro e' he'
    rw [rowsAbout_concat haudit]
    cases htold e' he' with
    | nothing mem becomes stage status concerns =>
      rw [concerns, if_neg (by simp), List.append_nil, becomes.id, becomes.origin, stage, status]
      exact h.trails _ mem
    | @moved e held becomes concerns moves =>
      have hbefore := h.trails e held.mem
      rw [Entry.isActive_iff.mp held.isActive] at hbefore
      rw [if_pos concerns, becomes.id, becomes.origin]
      exact .moved hbefore moves
    | @closed e held becomes concerns closes stage status =>
      have hbefore := h.trails e held.mem
      rw [Entry.isActive_iff.mp held.isActive] at hbefore
      rw [if_pos concerns, becomes.id, becomes.origin, stage, status]
      exact .closed hbefore closes
    | opened id concerns status opens =>
      rw [if_pos concerns, h.rowsAbout_of_fresh id, status]
      exact .opened opens
  . intro x hx id hconcerns
    rw [haudit, List.mem_append, List.mem_singleton] at hx
    rcases hx with hx | rfl
    . exact hc.ids_subset (h.known x hx id hconcerns)
    . exact hknown id hconcerns
  . intro x hx hsubject
    rw [haudit, List.mem_append, List.mem_singleton] at hx
    rcases hx with hx | rfl
    . exact (h.routes x hx hsubject).continues hc
    . exact hroutes

/-- A row that is filed under the only entry that it is about. -/
theorem alone {m : Int} (h : s.IsChronicled) (hc : s.Continues s') (haudit : s'.audit = s.audit ++ [r])
    (hsubject : r.subject = .entry) (hfiled : r.subjectId = toString m) (hopened : r.opened? = none)
    (haction : r.action ≠ .transfer) (hthere : m ∈ s'.entries.map (·.id))
    (hothers : ∀ e' ∈ s'.entries, e'.id ≠ m → e' ∈ s.entries)
    (htold : ∀ e' ∈ s'.entries, e'.id = m → r.concerns e'.id → s.Told r e') : s'.IsChronicled := by
  have hconcerns : ∀ id, r.concerns id ↔ id = m := fun id => AuditRow.concerns_iff_eq hsubject hfiled hopened
  apply h.concat hc haudit
  . intro e' he'
    by_cases hid : e'.id = m
    . exact htold e' he' hid ((hconcerns _).mpr hid)
    . apply told_self (hothers e' he' hid)
      rwa [hconcerns]
  . intro id hid
    rwa [(hconcerns id).mp hid]
  . rintro (htransfer | hsome)
    . exact absurd htransfer haction
    . simp [hopened] at hsome

theorem step {f : Effect} (hs : s.IsSound) (h : s.IsChronicled) (hstep : Step f s s') : s'.IsChronicled := by
  have hc := Continues.step hs hstep
  have hsame : ∀ e ∈ s.entries, ∃ x ∈ s.entries, x.Becomes e ∧ e.stage = x.stage ∧ e.status = x.status :=
    fun e he => ⟨e, he, .refl e, rfl, rfl⟩
  cases hstep with
  | aside _ entries audit =>
    refine h.congr hc (audit.trans (List.append_nil _).symm) (by simp) ?_
    rw [entries]
    exact hsame
  | addStage => exact h.congr hc (List.append_nil _).symm (by simp) hsame
  | note n actor time subject =>
    refine h.congr hc (addAudit_audit s _) ?_ hsame
    intro r hr
    rw [List.mem_singleton.mp hr]
    exact subject
  | @refresh _ e b held =>
    refine h.congr hc (List.append_nil _).symm (by simp) ?_
    intro x hx
    rcases mem_putEntry hx with rfl | ⟨hx, -⟩
    . exact ⟨e, held.mem, .remember held.isActive b, rfl, rfl⟩
    . exact hsame x hx
  | @enroll _ c e first opening origin =>
    refine h.alone hc (addAudit_audit _ _) rfl rfl rfl (by simp [Note.row]) (by simp) ?_ ?_
    . intro x hx hne
      rcases List.mem_append.mp hx with hx | hx
      . exact hx
      . exact absurd (congrArg Entry.id (List.mem_singleton.mp hx)) hne
    . intro x hx hid hconcerns
      rcases List.mem_append.mp hx with hx | hx
      . exact absurd hid (Int.ne_of_lt (lt_of_fresh hx opening.id))
      . cases List.mem_singleton.mp hx
        exact .opened opening.id hconcerns opening.status (.enrolled rfl rfl rfl origin opening.stage.symm)
  | @move _ c e new name note current target held here _ placed outcome sla warnings actor ends =>
    have hplaced := Advancement.isPlaced_of_placed placed
    have hthere : e.id ∈ (s.putEntry new).entries.map (·.id) := by
      rw [← hplaced.id]
      exact List.mem_map_of_mem (mem_putEntry_self held.mem hplaced.id.symm)
    have haction : outcome.action ≠ .transfer := by cases outcome <;> simp [Advancement.MoveOutcome.action]
    refine h.alone hc (addAudit_audit _ _) rfl rfl rfl haction hthere ?_ ?_
    . intro x hx hne
      rcases mem_putEntry hx with rfl | ⟨hx, -⟩
      . exact absurd hplaced.id hne
      . exact hx
    . intro x hx hid hconcerns
      rcases mem_putEntry hx with rfl | ⟨-, hne⟩
      . refine .moved held (.of_isPlaced held.isActive hplaced) hconcerns ⟨rfl, ?_, ?_⟩
        . have hold := ((find?_id_eq_some hs.stageIds).mp here).2
          exact ⟨current.ref, target.ref, sla, warnings, rfl, hold, hplaced.stage.symm⟩
        . exact action_of_isPlaced held hplaced ends
      . exact absurd (hid.trans hplaced.id.symm) hne
  | @archive _ c e stage reason kept held here =>
    have hclosed : e.archive kept c.now ∈ (s.putEntry (e.archive kept c.now)).entries := mem_putEntry_self held.mem rfl
    refine h.alone hc (addAudit_audit _ _) rfl rfl rfl (by simp [Note.row]) (List.mem_map.mpr ⟨_, hclosed, rfl⟩) ?_ ?_
    . intro x hx hne
      rcases mem_putEntry hx with rfl | ⟨hx, -⟩
      . exact absurd rfl hne
      . exact hx
    . intro x hx hid hconcerns
      rcases mem_putEntry hx with rfl | ⟨-, hne⟩
      . have hstage := ((find?_id_eq_some hs.stageIds).mp here).2
        exact .closed held (.archive held.isActive _ _) hconcerns (.archived rfl rfl rfl hstage) rfl rfl
      . exact absurd hid hne
  | @transfer _ c e opened stage first name reason kept held here _ _ _ _ opening origin =>
    have hid := opening.id
    rw [putEntry_ids] at hid
    have hlt := lt_of_fresh held.mem hid
    have hclosed : e.archive kept c.now ∈ (s.putEntry (e.archive kept c.now)).entries := mem_putEntry_self held.mem rfl
    apply h.concat hc (addAudit_audit _ _)
    . intro x hx
      rcases List.mem_append.mp hx with hx | hx
      . rcases mem_putEntry hx with rfl | ⟨hx, hother⟩
        . exact .closed held (.archive held.isActive _ _) ((AuditRow.concerns_iff rfl rfl).mpr (.inl rfl))
            (.transferred rfl rfl rfl rfl ((find?_id_eq_some hs.stageIds).mp here).2) rfl rfl
        . apply told_self hx
          rw [AuditRow.concerns_iff rfl rfl]
          rintro (hsame | hopened)
          . exact hother hsame
          . exact Int.ne_of_lt (lt_of_fresh hx hid) (Option.some.inj hopened).symm
      . cases List.mem_singleton.mp hx
        exact .opened hid ((AuditRow.concerns_iff rfl rfl).mpr (.inr rfl)) opening.status
          (.transferred rfl rfl rfl origin (Int.ne_of_lt hlt) rfl opening.stage.symm)
    . intro id hconcerns
      rcases (AuditRow.concerns_iff rfl rfl).mp hconcerns with rfl | hopened
      . exact List.mem_map.mpr ⟨_, List.mem_append_left _ hclosed, rfl⟩
      . rw [← Option.some.inj hopened]
        simp
    . intro _
      exact ⟨opened, by simp, e.id, rfl, rfl, rfl, origin⟩

end IsChronicled

/-! ## Histories -/

section

variable {s : Store}

/-- One row was written before another one, by their times or, if these are the same, by their ids. -/
def Earlier (r r' : AuditRow) : Prop :=
  r.writtenAt.micros < r'.writtenAt.micros ∨ r.writtenAt.micros = r'.writtenAt.micros ∧ r.id < r'.id

theorem Earlier.trans (a b c : AuditRow) (h : Earlier a b) (h' : Earlier b c) : Earlier a c := by
  unfold Earlier at *
  omega

theorem Earlier.asymm {a b : AuditRow} (h : Earlier a b) : ¬Earlier b a := by
  unfold Earlier at *
  omega

variable {e : Entry} {r : AuditRow}

def isFiledUnder (e : Entry) (r : AuditRow) : Bool :=
  r.subject = .entry && r.subjectId = toString e.id

/-- What is about an entry and not filed under it is the transfer of the one that it was transferred from. -/
theorem concerns_and_not_filed_iff (hs : s.IsSound) (ht : s.IsTraced) (h : s.IsChronicled) (he : e ∈ s.entries)
    (hr : r ∈ s.audit) : (r.concerns e.id ∧ ¬isFiledUnder e r) ↔
      r.subject = .entry ∧ r.action = .transfer ∧ ∃ m, e.transferredFrom = some m ∧ r.subjectId = toString m := by
  constructor
  . rintro ⟨hconcerns, hnot⟩
    simp only [AuditRow.concerns, isFiledUnder, Bool.and_eq_true, Bool.or_eq_true, decide_eq_true_eq] at hconcerns hnot
    obtain ⟨hsubject, hfiled | hopened⟩ := hconcerns
    . exact absurd ⟨hsubject, hfiled⟩ hnot
    . obtain ⟨x, hx, m, haction, hfiled, hopened', horigin⟩ := h.routes r hr hsubject (.inr (by simp [hopened]))
      have hid : x.id = e.id := by
        rw [hopened, Option.some.injEq] at hopened'
        exact hopened'.symm
      rw [eq_of_id_eq hs.entryIds hx he hid] at horigin
      exact ⟨hsubject, haction, m, horigin, hfiled⟩
  . rintro ⟨hsubject, haction, m, horigin, hfiled⟩
    obtain ⟨x, hx, m', -, hfiled', hopened, horigin'⟩ := h.routes r hr hsubject (.inl haction)
    have hsame : m' = m := AuditRow.toString_injective (hfiled'.symm.trans hfiled)
    rw [hsame] at horigin'
    rw [ht.unforked x hx e he m horigin' horigin] at hopened
    obtain ⟨source, -, rfl, hpasses⟩ := ht.sources e he m horigin
    have hne : source.id ≠ e.id := Int.ne_of_lt hpasses.lt
    constructor
    . exact (AuditRow.concerns_iff hsubject hfiled).mpr (.inr hopened)
    . simp only [isFiledUnder, hsubject, hfiled, Bool.and_eq_true, decide_eq_true_eq]
      exact fun h => hne (AuditRow.toString_injective h.2)

theorem filed_eq (s : Store) (e : Entry) :
    (s.audit.filter fun r => r.subject = .entry && r.subjectId = toString e.id) =
      (s.rowsAbout e.id).filter (isFiledUnder e) := by
  unfold rowsAbout
  rw [List.filter_filter]
  apply List.filter_congr
  intro r _
  rw [Bool.eq_iff_iff]
  simp only [isFiledUnder, AuditRow.concerns, Bool.and_eq_true, Bool.or_eq_true, decide_eq_true_eq]
  constructor
  . exact fun h => ⟨h, h.1, .inl h.2⟩
  . exact fun h => h.1

/-- The rows that the history of an entry is made of are those that are about it. -/
theorem history_perm (hs : s.IsSound) (ht : s.IsTraced) (h : s.IsChronicled) (he : e ∈ s.entries) :
    (s.history e).Perm (s.rowsAbout e.id) := by
  unfold history
  dsimp only
  rw [filed_eq]
  apply (Listing.inOrder_perm _).trans
  refine (List.Perm.append_left _ (.of_eq ?_)).trans (List.filter_append_perm (isFiledUnder e) _)
  have hnot : ∀ r ∈ s.audit, ((!isFiledUnder e r) && r.concerns e.id) = true ↔
      r.subject = .entry ∧ r.action = .transfer ∧ ∃ m, e.transferredFrom = some m ∧ r.subjectId = toString m := by
    intro r hr
    rw [← concerns_and_not_filed_iff hs ht h he hr, Bool.and_eq_true, Bool.not_eq_true', Bool.not_eq_true]
    exact and_comm
  unfold rowsAbout
  rw [List.filter_filter]
  split
  . next horigin =>
    symm
    rw [List.filter_eq_nil_iff]
    intro r hr hconcerns
    obtain ⟨-, -, m, hm, -⟩ := (hnot r hr).mp hconcerns
    rw [horigin] at hm
    cases hm
  . next m horigin =>
    obtain ⟨source, hsource, rfl, -⟩ := ht.sources e he m horigin
    rw [if_neg (Int.ne_of_gt (h.positive source hsource))]
    apply List.filter_congr
    intro r hr
    rw [Bool.eq_iff_iff, hnot r hr]
    simp only [horigin, Option.some.injEq, exists_eq_left', Bool.and_eq_true, decide_eq_true_eq]
    constructor
    . rintro ⟨⟨hsubject, hfiled⟩, haction⟩
      exact ⟨hsubject, haction, hfiled⟩
    . rintro ⟨hsubject, haction, hfiled⟩
      exact ⟨⟨hsubject, hfiled⟩, haction⟩

theorem nodup_rowsAbout (hs : s.IsSound) (id : Int) : (s.rowsAbout id).Nodup := by
  have hids : (s.audit.map (·.id)).Nodup := hs.auditIds.imp fun h => Int.ne_of_lt h
  exact hids.of_map.sublist List.filter_sublist

theorem pairwise_history (hs : s.IsSound) (hperm : (s.history e).Perm (s.rowsAbout e.id)) :
    (s.history e).Pairwise Earlier := by
  unfold history at hperm ⊢
  dsimp only at hperm ⊢
  apply Listing.pairwise_inOrder Earlier.trans
  have hrows := (Listing.inOrder_perm _).symm.trans hperm
  apply (hrows.nodup_iff.mpr (nodup_rowsAbout hs e.id)).imp_of_mem
  intro a b ha hb hne
  have hid : a.id ≠ b.id := by
    intro hid
    exact hne (eq_of_id_eq hs.auditIds (List.mem_of_mem_filter (hrows.mem_iff.mp ha))
      (List.mem_of_mem_filter (hrows.mem_iff.mp hb)) hid)
  simp only [Bool.or_eq_true, Bool.and_eq_true, decide_eq_true_eq, beq_iff_eq]
  unfold Earlier
  split <;> omega

theorem pairwise_rowsAbout (hs : s.IsSound) (id : Int)
    (hdates : (s.audit.filter (·.subject = .entry)).Pairwise (·.writtenAt ≤ ·.writtenAt)) :
    (s.rowsAbout id).Pairwise Earlier := by
  have hids := hs.auditIds
  rw [List.pairwise_map] at hids
  have hrows : s.rowsAbout id = (s.audit.filter (·.subject = .entry)).filter (·.concerns id) := by
    unfold rowsAbout
    rw [List.filter_filter]
    apply List.filter_congr
    intro r _
    simp +contextual [AuditRow.concerns]
  have hboth := (hdates.and (hids.sublist List.filter_sublist)).sublist (List.filter_sublist (p := (·.concerns id)))
  rw [← hrows] at hboth
  apply hboth.imp
  rintro a b ⟨hdate, hid⟩
  have hdate : a.writtenAt.micros ≤ b.writtenAt.micros := hdate
  unfold Earlier
  omega

/-- If the rows about entries stand in the order of their times, the history of an entry is all that is told of it. -/
theorem history_eq (hs : s.IsSound) (ht : s.IsTraced) (h : s.IsChronicled)
    (hdates : (s.audit.filter (·.subject = .entry)).Pairwise (·.writtenAt ≤ ·.writtenAt)) (he : e ∈ s.entries) :
    s.history e = s.rowsAbout e.id := by
  have hperm := history_perm hs ht h he
  apply hperm.eq_of_pairwise _ (pairwise_history hs hperm) (pairwise_rowsAbout hs e.id hdates)
  intro a b _ _ hab hba
  exact absurd hba hab.asymm

end

end Store

namespace Service

open Store

theorem isChronicled_reached (ts : List Turn) : (reached ts).store.IsChronicled :=
  run_induction (s := empty) (fun s s' => s.IsChronicled → s'.IsChronicled) (fun _ h => h)
    (fun h h' hs => h' (h hs)) (fun hs hstep h => h.step hs hstep) Store.isSound_empty ts Store.isChronicled_empty

/--
If what is written about entries is written one after the other, the history of an entry is all that is written about
it: the row that opened it, its moves, each from the stage where the row before leaves it, and in the end the row that
closed it, if it is closed. The last row leaves the entry as it is.
-/
theorem reached_history {ts : List Turn} (htimes : (empty.times ts).Pairwise (· ≤ ·)) {e : Entry}
    (he : e ∈ (reached ts).store.entries) :
    ((reached ts).store.history e).Nodup ∧
      (∀ r, r ∈ (reached ts).store.history e ↔ r ∈ (reached ts).store.audit ∧ r.concerns e.id) ∧
      AuditRow.Trail e.id e.transferredFrom ((reached ts).store.history e) e.stage e.status ∧
      ∀ r ∈ (reached ts).store.history e,
        r.Ends e.id ↔ ((reached ts).store.history e).getLast? = some r ∧ ¬e.isActive := by
  have hs := isSound_reached ts
  have hchronicled := isChronicled_reached ts
  rw [history_eq hs (isTraced_reached ts) hchronicled (dated_reached ts htimes).2 he]
  have htrail := hchronicled.trails e he
  refine ⟨nodup_rowsAbout hs e.id, fun r => List.mem_filter, htrail, ?_⟩
  rw [Entry.isActive_iff]
  exact htrail.ends_iff

/-- A lead that is moved on and transferred in the same second, and a day later moved on in its new pipeline. -/
def relay : List Turn :=
  let since (t : Int) : Caller := ⟨.text "system", some ⟨t⟩, .null⟩
  let stages : Value := .list [.object [("name", .text "New")], .object [("name", .text "Offer")],
    .object [("name", .text "Won")]]
  Turn.allIn ⟨⟨63908038800000000⟩, .int 1, .int 0⟩
    [.createLead [("name", .text "Ada")],
      .createPipeline (.text "system") (.object [("name", .text "Sales"), ("stages", stages)]),
      .createPipeline (.text "system") (.object [("name", .text "Care"), ("stages", stages)]),
      .enroll (since 63907952400000000) (.int 1) (.int 1) .null,
      .advance (since 63907952400000000) (.int 1) (.int 2) ⟨.null, .null⟩ .null,
      .transfer (since 63907952400000000) (.int 1) (.int 2) .null .null,
      .advance (since 63908038800000000) (.int 2) (.int 5) ⟨.null, .null⟩ .null] (by decide)

theorem reached_history_relay :
    ∃ e ∈ (reached relay).store.entries, ((reached relay).store.history e).map (·.id) = [11, 12] ∧
      ((reached relay).store.history e).map (·.subjectId) = ["1", "2"] ∧
      AuditRow.Trail 2 (some 1) ((reached relay).store.history e) 5 .active ∧
      ∀ r ∈ (reached relay).store.history e, ¬r.Ends 2 := by
  obtain ⟨e, he, hid, hfields, hids, hfiled⟩ : ∃ e ∈ (reached relay).store.entries, e.id = 2 ∧
      (e.transferredFrom = some 1 ∧ e.stage = 5 ∧ e.status = .active) ∧
      ((reached relay).store.history e).map (·.id) = [11, 12] ∧
      ((reached relay).store.history e).map (·.subjectId) = ["1", "2"] := by
    decide +kernel
  obtain ⟨horigin, hstage, hstatus⟩ := hfields
  have htimes : (empty.times relay).Pairwise (· ≤ ·) := by decide +kernel
  obtain ⟨-, -, htrail, hends⟩ := reached_history htimes he
  rw [hid, horigin, hstage, hstatus] at htrail
  rw [hid, Entry.isActive_iff] at hends
  refine ⟨e, he, hids, hfiled, htrail, ?_⟩
  intro r hr hended
  exact ((hends r hr).mp hended).2 hstatus

/-- A lead that is enrolled where clocks are two hours ahead, and is won an hour later by universal time. -/
def abroad : Service :=
  let env : Environment := ⟨⟨63908035200000000⟩, .int 1, .int 0⟩
  let since (t : Int) : Caller := ⟨.text "system", some ⟨t⟩, .null⟩
  let stages : Value := .list [.object [("name", .text "New")], .object [("name", .text "Won")]]
  let begun := reached (Turn.allIn env
    [.createLead [("name", .text "Ada")],
      .createPipeline (.text "system") (.object [("name", .text "Sales"), ("stages", stages)])] (by decide))
  let enroll : Command := .enroll (since 63908042400000000) (.int 1) (.int 1) .null
  let advance : Command := .advance (since 63908038800000000) (.int 1) (.int 2) ⟨.null, .null⟩ .null
  (advance.runIn (some 0) env (enroll.runIn (some 7200000000) env begun).2).2

/-- Rows are in the order of what clocks showed, which need not be that of the times. -/
theorem history_abroad :
    (∃ t : Instant, Stamp.instant ⟨⟨63908042400000000⟩, some 7200000000⟩ = .ok t ∧ t ≤ ⟨63908038800000000⟩) ∧
      ∃ e ∈ abroad.store.entries, (abroad.store.history e).map (·.action) = [.complete, .enroll] ∧
        ¬AuditRow.Trail e.id e.transferredFrom (abroad.store.history e) e.stage e.status := by
  obtain ⟨e, he, hactions⟩ : ∃ e ∈ abroad.store.entries,
      (abroad.store.history e).map (·.action) = [.complete, .enroll] := by
    decide +kernel
  refine ⟨⟨⟨63908035200000000⟩, rfl, by decide⟩, e, he, hactions, ?_⟩
  intro htrail
  obtain ⟨r, rest, first, hrows, hopens⟩ := htrail.exists_opening
  rw [hrows, List.map_cons, List.cons.injEq] at hactions
  cases hopens <;> simp_all

end Service

end StageGate
