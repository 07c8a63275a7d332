import Mathlib.Data.List.Find
import StageGate.Proofs.Transactions

/-!
This module contains what a batch of enrollments writes: the entries that leads get one after the other, where
each meets the entries before it, and the rows of the audit trail that a batch marks.
-/

namespace StageGate

open Transaction

/-- A row of the audit trail as it is if the enrollment that it tells of is part of a batch. -/
def AuditRow.inBulk (r : AuditRow) : AuditRow :=
  match r.change with
  | .enrolled stage _ => { r with change := .enrolled stage true }
  | _ => r

@[simp]
theorem AuditRow.inBulk_id (r : AuditRow) : r.inBulk.id = r.id := by
  unfold inBulk
  split <;> rfl

namespace Enrollment

/-! ## Entries that are opened by one call -/

/-- What entries have in common that are opened in a pipeline by one call. -/
structure Terms where
  first : Stage
  note : Option String
  bucket : Bucket

def terms (c : Call) (pipeline : Int) (note : Value) (s : Store) : Except Fault Terms := do
  let first ← Store.follow (s.stagesOf pipeline).head?
  let note ← Column.text note
  let health ← Health.of c.now c.now first.deadline c.window
  return ⟨first, note, health.bucket⟩

def signed (c : Call) (pipeline : Int) (note : Value) (s : Store) : Except Fault (Terms × String) := do
  let t ← terms c pipeline note s
  return (t, ← signature c.actor)

namespace Terms

def entry (t : Terms) (c : Call) (lead pipeline : Int) (s : Store) : Entry :=
  fresh c lead pipeline t.note none t.first t.bucket s

def opened (t : Terms) (c : Call) (lead pipeline : Int) (bulk : Bool) (actor : String) (s : Store) : Store :=
  let e := t.entry c lead pipeline s
  (s.addEntry e).addAudit (enrolledRow c e t.first bulk actor (s.addEntry e))

end Terms

section

variable {c : Call} {s s' : Store} {name note : Value} {lead pipeline : Int} {bulk : Bool}

theorem signed_congr (h : s'.stages = s.stages) : signed c pipeline note s' = signed c pipeline note s := by
  unfold signed terms Store.stagesOf
  rw [h]

theorem signed_opened {t : Terms} {actor : String} (h : signed c pipeline note s = .ok (t, actor)) :
    signed c pipeline note (t.opened c lead pipeline bulk actor s) = .ok (t, actor) :=
  (signed_congr rfl).trans h

theorem activeEntryIn?_opened {t : Terms} {actor : String} {x : Int} (h : x ≠ lead) :
    (t.opened c lead pipeline bulk actor s).activeEntryIn? x pipeline = s.activeEntryIn? x pipeline := by
  have hlead : (t.entry c lead pipeline s).lead = lead := rfl
  simp [Terms.opened, Store.activeEntryIn?, hlead, h.symm]

theorem newEntry_of_vacant (hvacant : s.activeEntryIn? lead pipeline = none) :
    newEntry c name lead pipeline note none s =
      (terms c pipeline note s).map fun t => (t.entry c lead pipeline s, t.first) := by
  rw [newEntry_universal]
  unfold terms
  rw [(requireVacant_eq_ok (u := ())).mpr hvacant]
  cases Store.follow (s.stagesOf pipeline).head? with
  | error => rfl
  | ok first =>
    cases Column.text note with
    | error => rfl
    | ok kept =>
      dsimp only [bind, Except.bind]
      cases Health.of c.now c.now first.deadline c.window <;> rfl

theorem openRecorded_of_vacant (hvacant : s.activeEntryIn? lead pipeline = none) :
    openRecorded c name lead pipeline note bulk s = (signed c pipeline note s).map fun (t, actor) =>
      (t.entry c lead pipeline s, t.opened c lead pipeline bulk actor s) := by
  have hnew : newEntry c name lead pipeline note none s = _ := newEntry_of_vacant hvacant
  unfold openRecorded signed
  cases ht : terms c pipeline note s with
  | error f =>
    rw [ht] at hnew
    exact Transaction.bind_of_error (reading_bind_of_error hnew _) _
  | ok t =>
    rw [ht] at hnew
    rw [Transaction.bind_of_ok (openEntry_eq_ok.mpr ⟨hnew, rfl⟩)]
    cases hactor : signature c.actor with
    | error f => exact Transaction.bind_of_error (record_of_error hactor) _
    | ok actor => exact Transaction.bind_of_ok (b := ()) (record_eq_ok.mpr ⟨actor, hactor, rfl⟩) _

theorem openRecorded_of_active {e : Entry} (hactive : s.activeEntryIn? lead pipeline = some e) :
    openRecorded c name lead pipeline note bulk s =
      .error (.refused (.alreadyEnrolled name (.int pipeline) (.int e.id) none)) := by
  apply Transaction.bind_of_error
  apply reading_bind_of_error
  rw [newEntry_universal]
  unfold requireVacant
  rw [hactive]
  rfl

end

/-! ## Entries of many leads -/

structure Batch where
  entries : List Entry
  skips : List Skip
  store : Store

/-- The entries that leads get one after the other, and those that are in the way. -/
def Terms.batch (t : Terms) (c : Call) (pipeline : Int) (bulk : Bool) (actor : String) :
    List Int → Store → Batch
  | [], s => ⟨[], [], s⟩
  | lead :: leads, s =>
    match s.activeEntryIn? lead pipeline with
    | some e =>
      let b := t.batch c pipeline bulk actor leads s
      { b with skips := ⟨.int lead, e.id⟩ :: b.skips }
    | none =>
      let b := t.batch c pipeline bulk actor leads (t.opened c lead pipeline bulk actor s)
      { b with entries := t.entry c lead pipeline s :: b.entries }

theorem Terms.batch_stages {c : Call} {t : Terms} {pipeline : Int} {bulk : Bool} {actor : String}
    (leads : List Int) (s : Store) : (t.batch c pipeline bulk actor leads s).store.stages = s.stages := by
  induction leads generalizing s with
  | nil => rfl
  | cons lead leads ih =>
    unfold Terms.batch
    cases s.activeEntryIn? lead pipeline with
    | some e => exact ih s
    | none => exact ih _

/-- What is in the way of leads if no entry can be opened: the first lead without one gets the fault. -/
def skipsOr (f : Fault) (pipeline : Int) (s : Store) : List Int → Except Fault (List Skip)
  | [] => .ok []
  | lead :: leads =>
    match s.activeEntryIn? lead pipeline with
    | some e => (skipsOr f pipeline s leads).map (⟨.int lead, e.id⟩ :: ·)
    | none => .error f

def Candidate.ofId (lead : Int) : Candidate :=
  ⟨.int lead, lead⟩

@[simp] theorem Candidate.ofId_name (lead : Int) : (ofId lead).name = .int lead := rfl

@[simp] theorem Candidate.ofId_lead (lead : Int) : (ofId lead).lead = lead := rfl

section

variable {c : Call} {s : Store} {note : Value} {pipeline lead : Int} {skip : Bool} {t : Terms} {actor : String}

theorem openEach_cons_of_active {e : Entry} (hactive : s.activeEntryIn? lead pipeline = some e)
    (leads : List Candidate) :
    openEach c (.int pipeline) pipeline true note (.ofId lead :: leads) s =
      (openEach c (.int pipeline) pipeline true note leads s).map
        fun ((entries, skips), s') => ((entries, ⟨.int lead, e.id⟩ :: skips), s') := by
  rw [openEach, Transaction.bind_of_ok (get_eq_ok.mpr ⟨rfl, rfl⟩), Candidate.ofId_lead, hactive]
  cases hrest : openEach c (.int pipeline) pipeline true note leads s with
  | error f => exact Transaction.bind_of_error hrest _
  | ok r => exact Transaction.bind_of_ok hrest _

theorem openEach_cons_of_vacant (hsigned : signed c pipeline note s = .ok (t, actor))
    (hvacant : s.activeEntryIn? lead pipeline = none) (leads : List Candidate) :
    openEach c (.int pipeline) pipeline skip note (.ofId lead :: leads) s =
      (openEach c (.int pipeline) pipeline skip note leads (t.opened c lead pipeline true actor s)).map
        fun ((entries, skips), s') => ((t.entry c lead pipeline s :: entries, skips), s') := by
  have hopen : openRecorded c (.int lead) lead pipeline note true s = _ := openRecorded_of_vacant hvacant
  rw [hsigned] at hopen
  rw [openEach, Transaction.bind_of_ok (get_eq_ok.mpr ⟨rfl, rfl⟩), Candidate.ofId_lead, Candidate.ofId_name, hvacant]
  refine (Transaction.bind_of_ok (refusingViolations_eq_ok.mpr hopen) _).trans ?_
  cases hrest : openEach c (.int pipeline) pipeline skip note leads (t.opened c lead pipeline true actor s) with
  | error f => exact Transaction.bind_of_error hrest _
  | ok r => exact Transaction.bind_of_ok hrest _

theorem openEach_of_signed (h : signed c pipeline note s = .ok (t, actor)) (leads : List Int) :
    openEach c (.int pipeline) pipeline true note (leads.map .ofId) s =
      let b := t.batch c pipeline true actor leads s
      .ok ((b.entries, b.skips), b.store) := by
  induction leads generalizing s with
  | nil => rfl
  | cons lead leads ih =>
    rw [List.map_cons, Terms.batch]
    cases hactive : s.activeEntryIn? lead pipeline with
    | some e =>
      rw [openEach_cons_of_active hactive, ih h]
      rfl
    | none =>
      rw [openEach_cons_of_vacant h hactive, ih (signed_opened h)]
      rfl

theorem openEach_of_unsigned {f : Fault} (h : signed c pipeline note s = .error f) (hf : f.IsPlain)
    (leads : List Int) :
    openEach c (.int pipeline) pipeline true note (leads.map .ofId) s =
      (skipsOr f pipeline s leads).map fun skips => (([], skips), s) := by
  induction leads with
  | nil => rfl
  | cons lead leads ih =>
    rw [List.map_cons, skipsOr]
    cases hactive : s.activeEntryIn? lead pipeline with
    | some e =>
      rw [openEach_cons_of_active hactive, ih]
      cases skipsOr f pipeline s leads <;> rfl
    | none =>
      have hopen : openRecorded c (.int lead) lead pipeline note true s = _ := openRecorded_of_vacant hactive
      rw [h] at hopen
      rw [openEach, Transaction.bind_of_ok (get_eq_ok.mpr ⟨rfl, rfl⟩), Candidate.ofId_lead, Candidate.ofId_name,
        hactive]
      exact Transaction.bind_of_error (refusingViolations_of_plain hopen hf) _

/-! ## Leads that have to be new -/

theorem openEach_of_vacant (hsigned : signed c pipeline note s = .ok (t, actor)) {leads : List Int}
    (hnodup : leads.Nodup) (hvacant : ∀ lead ∈ leads, s.activeEntryIn? lead pipeline = none) :
    openEach c (.int pipeline) pipeline false note (leads.map .ofId) s =
      let b := t.batch c pipeline true actor leads s
      .ok ((b.entries, b.skips), b.store) := by
  induction leads generalizing s with
  | nil => rfl
  | cons lead leads ih =>
    rw [List.nodup_cons] at hnodup
    simp only [List.mem_cons, forall_eq_or_imp] at hvacant
    have hstill : ∀ x ∈ leads, (t.opened c lead pipeline true actor s).activeEntryIn? x pipeline = none := by
      intro x hx
      rw [activeEntryIn?_opened (ne_of_mem_of_not_mem hx hnodup.1)]
      exact hvacant.2 x hx
    rw [List.map_cons, openEach_cons_of_vacant hsigned hvacant.1, ih (signed_opened hsigned) hnodup.2 hstill,
      Terms.batch, hvacant.1]
    rfl

theorem openEach_of_taken (hsigned : signed c pipeline note s = .ok (t, actor)) {leads : List Int}
    (hnodup : leads.Nodup) {e : Entry}
    (hfirst : leads.find? (fun x => (s.activeEntryIn? x pipeline).isSome) = some lead)
    (hactive : s.activeEntryIn? lead pipeline = some e) :
    openEach c (.int pipeline) pipeline false note (leads.map .ofId) s =
      .error (.refused (.alreadyEnrolled (.int lead) (.int pipeline) (.int e.id) none)) := by
  induction leads generalizing s with
  | nil => simp at hfirst
  | cons x leads ih =>
    rw [List.nodup_cons] at hnodup
    rw [List.map_cons]
    cases hx : s.activeEntryIn? x pipeline with
    | some y =>
      rw [List.find?_cons_of_pos (by simp [hx]), Option.some.injEq] at hfirst
      rw [hfirst, hactive] at hx
      cases hx
      rw [hfirst, openEach, Transaction.bind_of_ok (get_eq_ok.mpr ⟨rfl, rfl⟩), Candidate.ofId_lead,
        Candidate.ofId_name, hactive]
      exact Transaction.bind_of_error (refusingViolations_of_refused (openRecorded_of_active hactive)) _
    | none =>
      -- This lead gets an entry, which is of no use: the transaction goes on to the one that is taken.
      rw [List.find?_cons_of_neg (by simp [hx])] at hfirst
      have hother : ∀ y ∈ leads, (t.opened c x pipeline true actor s).activeEntryIn? y pipeline =
          s.activeEntryIn? y pipeline :=
        fun y hy => activeEntryIn?_opened (ne_of_mem_of_not_mem hy hnodup.1)
      have hmem := List.mem_of_find?_eq_some hfirst
      rw [← List.find?_congr fun y hy => congrArg Option.isSome (hother y hy)] at hfirst
      rw [openEach_cons_of_vacant hsigned hx,
        ih (signed_opened hsigned) hnodup.2 hfirst ((hother lead hmem).trans hactive)]
      rfl

end

/-! ## The rows that a batch marks -/

/-- Two stores that differ in that the rows with which one trail goes on are marked in the other. -/
structure Marks (base : List AuditRow) (s s' : Store) : Prop where
  rows : ∃ rows, s.audit = base ++ rows ∧ s' = { s with audit := base ++ rows.map .inBulk }

namespace Marks

variable {c : Call} {base : List AuditRow} {s s' : Store} {t : Terms} {pipeline : Int} {actor : String}

theorem refl (s : Store) : Marks s.audit s s :=
  ⟨[], by simp, by simp⟩

theorem opened (h : Marks base s s') (lead : Int) :
    Marks base (t.opened c lead pipeline false actor s) (t.opened c lead pipeline true actor s') := by
  obtain ⟨rows, haudit, rfl⟩ := h.rows
  refine ⟨rows ++ [enrolledRow c (t.entry c lead pipeline s) t.first false actor s], ?_, ?_⟩
  . rw [← List.append_assoc, ← haudit]
    rfl
  . have hids : (base ++ rows.map AuditRow.inBulk).map (·.id) = s.audit.map (·.id) := by
      rw [haudit]
      simp
    have hrow : ∀ x : Store, x.audit = base ++ rows.map .inBulk →
        enrolledRow c (t.entry c lead pipeline s) t.first true actor x =
          (enrolledRow c (t.entry c lead pipeline s) t.first false actor s).inBulk := by
      intro x hx
      unfold enrolledRow Note.row AuditRow.inBulk
      rw [hx, hids]
    rw [List.map_append, ← List.append_assoc, List.map_singleton,
      ← hrow { s with audit := base ++ rows.map .inBulk } rfl]
    rfl

theorem batch (h : Marks base s s') (t : Terms) (c : Call) (pipeline : Int) (actor : String) (leads : List Int) :
    (t.batch c pipeline true actor leads s').entries = (t.batch c pipeline false actor leads s).entries ∧
      (t.batch c pipeline true actor leads s').skips = (t.batch c pipeline false actor leads s).skips ∧
      Marks base (t.batch c pipeline false actor leads s).store (t.batch c pipeline true actor leads s').store := by
  induction leads generalizing s s' with
  | nil => exact ⟨rfl, rfl, h⟩
  | cons lead leads ih =>
    -- Both stores have the same entries, so that the same leads are passed over in both.
    have hentries : s'.entries = s.entries := by
      obtain ⟨rows, -, rfl⟩ := h.rows
      rfl
    have hactive : s'.activeEntryIn? lead pipeline = s.activeEntryIn? lead pipeline := by
      unfold Store.activeEntryIn?
      rw [hentries]
    unfold Terms.batch
    rw [hactive]
    cases s.activeEntryIn? lead pipeline with
    | some e =>
      obtain ⟨hentries, hskips, hmarks⟩ := ih h
      dsimp only
      exact ⟨hentries, by rw [hskips], hmarks⟩
    | none =>
      obtain ⟨hes, hskips, hmarks⟩ := ih (h.opened lead)
      refine ⟨?_, hskips, hmarks⟩
      dsimp only
      rw [hes]
      simp only [Terms.entry, fresh, hentries]

end Marks

/-! ## The leads that a batch lists -/

/-- What is in the way of leads, as a batch tells it. -/
def skipsIn (pipeline : Int) (s : Store) (leads : List Int) : List Skip :=
  leads.filterMap fun lead => (s.activeEntryIn? lead pipeline).map fun e => ⟨.int lead, e.id⟩

def vacantIn (pipeline : Int) (s : Store) (leads : List Int) : List Int :=
  leads.filter fun lead => (s.activeEntryIn? lead pipeline).isNone

section

variable {c : Call} {s s' : Store} {pipeline : Int} {t : Terms} {actor : String} {bulk : Bool} {leads : List Int}

theorem skipsIn_congr (h : ∀ x ∈ leads, s'.activeEntryIn? x pipeline = s.activeEntryIn? x pipeline) :
    skipsIn pipeline s' leads = skipsIn pipeline s leads := by
  induction leads with
  | nil => rfl
  | cons lead leads ih =>
    simp only [List.mem_cons, forall_eq_or_imp] at h
    have hrest := ih h.2
    unfold skipsIn at hrest ⊢
    rw [List.filterMap_cons, List.filterMap_cons, h.1, hrest]

theorem vacantIn_congr (h : ∀ x ∈ leads, s'.activeEntryIn? x pipeline = s.activeEntryIn? x pipeline) :
    vacantIn pipeline s' leads = vacantIn pipeline s leads := by
  unfold vacantIn
  apply List.filter_congr
  intro x hx
  rw [h x hx]

theorem Terms.batch_lists (hnodup : leads.Nodup) :
    (t.batch c pipeline bulk actor leads s).skips = skipsIn pipeline s leads ∧
      (t.batch c pipeline bulk actor leads s).entries.map (·.lead) = vacantIn pipeline s leads := by
  induction leads generalizing s with
  | nil => exact ⟨rfl, rfl⟩
  | cons lead leads ih =>
    rw [List.nodup_cons] at hnodup
    unfold Terms.batch
    cases hactive : s.activeEntryIn? lead pipeline with
    | some e =>
      obtain ⟨hskips, hentries⟩ := ih (s := s) hnodup.2
      simp only [skipsIn, vacantIn, List.filterMap_cons, List.filter_cons, hactive] at hskips hentries ⊢
      exact ⟨by rw [hskips]; rfl, hentries⟩
    | none =>
      have hother : ∀ x ∈ leads, (t.opened c lead pipeline bulk actor s).activeEntryIn? x pipeline =
          s.activeEntryIn? x pipeline :=
        fun x hx => activeEntryIn?_opened (ne_of_mem_of_not_mem hx hnodup.1)
      obtain ⟨hskips, hentries⟩ := ih (s := t.opened c lead pipeline bulk actor s) hnodup.2
      rw [skipsIn_congr hother] at hskips
      rw [vacantIn_congr hother] at hentries
      simp only [skipsIn, vacantIn, List.filterMap_cons, List.filter_cons, hactive] at hskips hentries ⊢
      exact ⟨hskips, by rw [List.map_cons, hentries]; rfl⟩

theorem lists_of_skipsOr {f : Fault} {skips : List Skip} (h : skipsOr f pipeline s leads = .ok skips) :
    skips = skipsIn pipeline s leads ∧ vacantIn pipeline s leads = [] := by
  induction leads generalizing skips with
  | nil =>
    cases h
    exact ⟨rfl, rfl⟩
  | cons lead leads ih =>
    unfold skipsOr at h
    cases hactive : s.activeEntryIn? lead pipeline with
    | none =>
      rw [hactive] at h
      cases h
    | some e =>
      rw [hactive] at h
      cases hrest : skipsOr f pipeline s leads with
      | error e' =>
        rw [hrest] at h
        cases h
      | ok rest =>
        rw [hrest] at h
        cases h
        obtain ⟨hskips, hvacant⟩ := ih hrest
        simp only [skipsIn, vacantIn, List.filterMap_cons, List.filter_cons, hactive] at hskips hvacant ⊢
        exact ⟨by rw [hskips]; rfl, hvacant⟩

end

end Enrollment

end StageGate
