import StageGate.Proofs.Batch

/-!
This module contains that leads which are enrolled one by one, each by a call of its own, get the entries of a
batch whose rows of the audit trail have no mark.
-/

namespace StageGate

open Transaction Operation

namespace Enrollment

/-! ## One by one -/

/-- Enrolls a lead, or tells which entry of it is in the way. -/
def attempt (c : Call) (pipeline : Int) (note : Value) (lead : Int) : Operation (EntryView ⊕ Skip) :=
  tryCatch (Sum.inl <$> enroll c (.int lead) (.int pipeline) note) fun
    | .refused (.alreadyEnrolled lead _ (.int entry) _) => return .inr ⟨lead, entry⟩
    | e => throw e

/-- Enrolls leads one after the other, each by a call of its own, and passes over those that are enrolled. -/
def oneByOne (c : Call) (pipeline : Int) (note : Value) : List Int → Operation Bulk
  | [] => return ⟨[], []⟩
  | lead :: leads => do
    let answer ← attempt c pipeline note lead
    let rest ← oneByOne c pipeline note leads
    return match answer with
      | .inl view => { rest with enrolled := view :: rest.enrolled }
      | .inr skip => { rest with skipped := skip :: rest.skipped }

/-- What is so of a service before leads are enrolled, and stays so while they are. -/
structure IsReady (c : Call) (pipeline : Int) (leads : List Int) (s : Service) : Prop where
  sound : s.store.IsSound
  unhindered : c.IsUnhindered s
  isEnrollable : ∃ p, enrollable (.int pipeline) s.store = .ok p
  known : ∀ lead ∈ leads, ∃ l, s.store.lead (.int lead) = .ok l ∧ l.id = lead

section

variable {c : Call} {s s' : Service} {note : Value} {pipeline lead : Int} {leads : List Int}

theorem attempt_eq (s : Service) : attempt c pipeline note lead s =
    match enroll c (.int lead) (.int pipeline) note s with
    | (.ok view, s') => (.ok (.inl view), s')
    | (.error (.refused (.alreadyEnrolled name _ (.int entry) _)), s') => (.ok (.inr ⟨name, entry⟩), s')
    | (.error f, s') => (.error f, s') := by
  simp only [attempt, tryCatch, tryCatchThe, MonadExceptOf.tryCatch, ExceptT.tryCatch, ExceptT.mk, Functor.map,
    ExceptT.map, bind, StateT.bind]
  rcases enroll c (.int lead) (.int pipeline) note s with ⟨r, s'⟩
  cases r with
  | ok view => rfl
  | error f =>
    cases f with
    | broken => rfl
    | refused r =>
      cases r with
      | alreadyEnrolled name other entry => cases entry <;> rfl
      | _ => rfl

theorem attempt_of_ok {view : EntryView} (h : enroll c (.int lead) (.int pipeline) note s = (.ok view, s')) :
    attempt c pipeline note lead s = (.ok (.inl view), s') := by
  rw [attempt_eq, h]

theorem attempt_of_enrolled {name other : Value} {entry : Int} {constraint : Option String}
    (h : enroll c (.int lead) (.int pipeline) note s =
      (.error (.refused (.alreadyEnrolled name other (.int entry) constraint)), s')) :
    attempt c pipeline note lead s = (.ok (.inr ⟨name, entry⟩), s') := by
  rw [attempt_eq, h]

theorem attempt_of_plain {f : Fault} (hf : f.IsPlain)
    (h : enroll c (.int lead) (.int pipeline) note s = (.error f, s')) :
    attempt c pipeline note lead s = (.error f, s') := by
  rw [attempt_eq, h]
  cases f with
  | broken b => rfl
  | refused r =>
    cases r with
    | misconfigured => rfl
    | _ => cases hf

theorem locks_enroll : (enroll c (.int lead) (.int pipeline) note s).2.locks = s.locks :=
  (returns_enroll c (.int lead) (.int pipeline) note s.locks).after s rfl

theorem enrolling_of_ready (h : IsReady c pipeline leads s) (hlead : lead ∈ leads) :
    enrolling c (.int lead) (.int pipeline) note s.store =
      (refusingEntry (.int lead) (.int pipeline) (openRecorded c (.int lead) lead pipeline note false) >>=
        fun e => Transaction.reading (·.view c.window c.now e)) s.store := by
  obtain ⟨l, hl, hid⟩ := h.known lead hlead
  obtain ⟨p, hp⟩ := h.isEnrollable
  unfold enrolling
  rw [reading_bind_of_ok hl, reading_bind_of_ok hp, hid, id_of_enrollable hp]

theorem enroll_of_opened (h : IsReady c pipeline leads s) (hlead : lead ∈ leads) {e : Entry} {store : Store}
    (hopen : openRecorded c (.int lead) lead pipeline note false s.store = .ok (e, store)) :
    ∃ view s', enroll c (.int lead) (.int pipeline) note s = (.ok view, s') ∧ s'.store = store ∧
      s.store.view c.window c.now e = .ok view := by
  obtain ⟨first, actor, hnew, -, hstore⟩ := openRecorded_eq_ok.mp hopen
  obtain ⟨view, hview⟩ := exists_view_of_newEntry h.sound.stageIds hnew
  have hshown : store.view c.window c.now e = .ok view := by
    rw [← hview, hstore]
    exact Store.view_congr rfl c.window c.now e
  have henrolling : enrolling c (.int lead) (.int pipeline) note s.store = .ok (view, store) := by
    rw [enrolling_of_ready h hlead]
    refine (Transaction.bind_of_ok (refusingViolations_eq_ok.mpr hopen) _).trans ?_
    exact reading_eq_ok.mpr ⟨hshown, rfl⟩
  obtain ⟨s', hanswer, hs'⟩ := (does_enroll h.sound h.unhindered rfl rfl note).of_ok henrolling
  exact ⟨view, s', hanswer, hs', hview⟩

theorem enroll_of_fault (h : IsReady c pipeline leads s) (hlead : lead ∈ leads) {f : Fault}
    (hopen : refusingEntry (.int lead) (.int pipeline) (openRecorded c (.int lead) lead pipeline note false)
      s.store = .error f) :
    ∃ s', enroll c (.int lead) (.int pipeline) note s = (.error f, s') ∧ s'.store = s.store := by
  have henrolling : enrolling c (.int lead) (.int pipeline) note s.store = .error f := by
    rw [enrolling_of_ready h hlead]
    exact Transaction.bind_of_error hopen _
  exact (does_enroll h.sound h.unhindered rfl rfl note).of_error henrolling

theorem IsReady.tail (h : IsReady c pipeline (lead :: leads) s) : IsReady c pipeline leads s :=
  ⟨h.sound, h.unhindered, h.isEnrollable, fun x hx => h.known x (by simp [hx])⟩

theorem IsReady.of_store (h : IsReady c pipeline leads s) (hlocks : s'.locks = s.locks)
    (hsound : s'.store.IsSound) (hopen : enrollable (.int pipeline) s'.store = enrollable (.int pipeline) s.store)
    (hleads : ∀ lead, s'.store.lead lead = s.store.lead lead) : IsReady c pipeline leads s' where
  sound := hsound
  unhindered := by
    refine ⟨?_, h.unhindered.wait⟩
    rw [hlocks]
    exact h.unhindered.free
  isEnrollable := by
    rw [hopen]
    exact h.isEnrollable
  known := by
    simp only [hleads]
    exact h.known

theorem attempt_of_active (h : IsReady c pipeline leads s) (hlead : lead ∈ leads) {e : Entry}
    (hactive : s.store.activeEntryIn? lead pipeline = some e) (note : Value) :
    ∃ s', attempt c pipeline note lead s = (.ok (.inr ⟨.int lead, e.id⟩), s') ∧ s'.store = s.store ∧
      IsReady c pipeline leads s' := by
  have hopen : openRecorded c (.int lead) lead pipeline note false s.store = _ := openRecorded_of_active hactive
  obtain ⟨s', hanswer, hstore⟩ := enroll_of_fault h hlead (refusingViolations_of_refused hopen)
  refine ⟨s', attempt_of_enrolled hanswer, hstore, ?_⟩
  have hlocks : (enroll c (.int lead) (.int pipeline) note s).2.locks = s.locks := locks_enroll
  rw [hanswer] at hlocks
  apply h.of_store hlocks <;> rw [hstore]
  . exact h.sound
  . exact fun _ => rfl

theorem attempt_of_signed (h : IsReady c pipeline leads s) (hlead : lead ∈ leads) {t : Terms} {actor : String}
    (hsigned : signed c pipeline note s.store = .ok (t, actor))
    (hvacant : s.store.activeEntryIn? lead pipeline = none) :
    ∃ view s', attempt c pipeline note lead s = (.ok (.inl view), s') ∧
      s'.store = t.opened c lead pipeline false actor s.store ∧
      s.store.view c.window c.now (t.entry c lead pipeline s.store) = .ok view ∧ IsReady c pipeline leads s' := by
  have hopen : openRecorded c (.int lead) lead pipeline note false s.store = _ := openRecorded_of_vacant hvacant
  rw [hsigned] at hopen
  obtain ⟨view, s', hanswer, hstore, hview⟩ := enroll_of_opened h hlead hopen
  refine ⟨view, s', attempt_of_ok hanswer, hstore, hview, ?_⟩
  have hlocks : (enroll c (.int lead) (.int pipeline) note s).2.locks = s.locks := locks_enroll
  rw [hanswer] at hlocks
  obtain ⟨l, hl, rfl⟩ := h.known lead hlead
  have hstep := ((leads_openRecorded h.sound (Store.knows_of_lead hl)).of_ok hopen).1
  apply h.of_store hlocks <;> rw [hstore]
  . exact h.sound.step hstep
  . rfl
  . exact fun _ => rfl

theorem attempt_of_unsigned (h : IsReady c pipeline leads s) (hlead : lead ∈ leads) {f : Fault} (hf : f.IsPlain)
    (hsigned : signed c pipeline note s.store = .error f)
    (hvacant : s.store.activeEntryIn? lead pipeline = none) :
    ∃ s', attempt c pipeline note lead s = (.error f, s') ∧ s'.store = s.store := by
  have hopen : openRecorded c (.int lead) lead pipeline note false s.store = _ := openRecorded_of_vacant hvacant
  rw [hsigned] at hopen
  obtain ⟨s', hanswer, hstore⟩ := enroll_of_fault h hlead (refusingViolations_of_plain hopen hf)
  exact ⟨s', attempt_of_plain hf hanswer, hstore⟩

theorem oneByOne_of_signed (h : IsReady c pipeline leads s) {t : Terms} {actor : String}
    (hsigned : signed c pipeline note s.store = .ok (t, actor)) :
    ∃ views s', oneByOne c pipeline note leads s =
        (.ok ⟨views, (t.batch c pipeline false actor leads s.store).skips⟩, s') ∧
      s'.store = (t.batch c pipeline false actor leads s.store).store ∧
      (t.batch c pipeline false actor leads s.store).entries.mapM (s.store.view c.window c.now) = .ok views := by
  induction leads generalizing s with
  | nil => exact ⟨[], s, rfl, rfl, rfl⟩
  | cons lead leads ih =>
    unfold oneByOne Terms.batch
    -- Whatever becomes of a lead, the service is ready for the leads after it.
    cases hactive : s.store.activeEntryIn? lead pipeline with
    | some e =>
      obtain ⟨s', hanswer, hstore, hready⟩ := attempt_of_active h (by simp) hactive note
      obtain ⟨views, s'', hrest, hstore', hviews⟩ := ih hready.tail (by rw [hstore]; exact hsigned)
      rw [hstore] at hrest hstore' hviews
      refine ⟨views, s'', ?_, hstore', hviews⟩
      rw [Operation.bind_of_ok hanswer, Operation.bind_of_ok hrest]
      rfl
    | none =>
      obtain ⟨view, s', hanswer, hstore, hview, hready⟩ := attempt_of_signed h (by simp) hsigned hactive
      obtain ⟨views, s'', hrest, hstore', hviews⟩ :=
        ih hready.tail (by rw [hstore, signed_congr rfl]; exact hsigned)
      rw [hstore] at hrest hstore' hviews
      refine ⟨view :: views, s'', ?_, hstore', ?_⟩
      . rw [Operation.bind_of_ok hanswer, Operation.bind_of_ok hrest]
        rfl
      . have hsame : (t.opened c lead pipeline false actor s.store).view c.window c.now =
            s.store.view c.window c.now := funext fun e => Store.view_congr rfl c.window c.now e
        rw [hsame] at hviews
        simp only [List.mapM_cons, hview, hviews]
        rfl

theorem oneByOne_of_unsigned (h : IsReady c pipeline leads s) {f : Fault} (hf : f.IsPlain)
    (hsigned : signed c pipeline note s.store = .error f) :
    ∃ s', oneByOne c pipeline note leads s = ((skipsOr f pipeline s.store leads).map (⟨[], ·⟩), s') ∧
      s'.store = s.store := by
  induction leads generalizing s with
  | nil => exact ⟨s, rfl, rfl⟩
  | cons lead leads ih =>
    unfold oneByOne skipsOr
    cases hactive : s.store.activeEntryIn? lead pipeline with
    | some e =>
      obtain ⟨s', hanswer, hstore, hready⟩ := attempt_of_active h (by simp) hactive note
      obtain ⟨s'', hrest, hstore'⟩ := ih hready.tail (by rw [hstore]; exact hsigned)
      rw [hstore] at hrest hstore'
      refine ⟨s'', ?_, hstore'⟩
      rw [Operation.bind_of_ok hanswer]
      cases hskips : skipsOr f pipeline s.store leads with
      | error f' =>
        rw [hskips] at hrest
        exact Operation.bind_of_error hrest _
      | ok skips =>
        rw [hskips] at hrest
        exact Operation.bind_of_ok hrest _
    | none =>
      obtain ⟨s', hanswer, hstore⟩ := attempt_of_unsigned h (by simp) hf hsigned hactive
      exact ⟨s', Operation.bind_of_error hanswer _, hstore⟩

end

end Enrollment

end StageGate
