import StageGate.Proofs.Consistency
import StageGate.Proofs.OneByOne

/-!
This module contains that the enrollment of many leads is their enrollment one by one, in one transaction
and with a mark on the rows of the audit trail.
-/

namespace StageGate

open Transaction Operation

/-- No more different ids than one query can ask for. -/
def AreFew (ids : List Int) : Prop :=
  ids.eraseDups.length ≤ Store.mostVariables

instance (ids : List Int) : Decidable (AreFew ids) :=
  inferInstanceAs (Decidable (_ ≤ _))

/-- Every id is that of a lead, and there are few of them. -/
structure Store.HasLeads (s : Store) (ids : List Int) : Prop where
  few : AreFew ids
  known : ∀ id ∈ ids, Column.checkInt id = .ok () ∧ (s.lead? id).isSome

namespace Enrollment

/-! ## Leads that are named by their ids -/

theorem distinct_ints (seen ids : List Int) : distinct (seen.map .int) (ids.map .int) =
    .ok ((ids.filter (· ∉ seen)).eraseDups.map .int) := by
  induction ids generalizing seen with
  | nil => rfl
  | cons id ids ih =>
    have hseen : (seen.map Value.int).any (Value.int id).same = decide (id ∈ seen) := by
      rw [List.any_map, Bool.eq_iff_iff]
      simp [Value.same_int]
    have hkey : Value.isKey (.int id) = true := rfl
    rw [List.map_cons, distinct, hseen, hkey]
    simp only [Bool.not_true, Bool.false_eq_true, ↓reduceIte, decide_eq_true_eq]
    by_cases h : id ∈ seen
    . rw [if_pos h, ih, List.filter_cons_of_neg (by simpa using h)]
    . have hrest := ih (id :: seen)
      rw [List.map_cons] at hrest
      rw [if_neg h, hrest, List.filter_cons_of_pos (by simpa using h), List.eraseDups_cons, List.filter_filter]
      have hunseen : (fun x => decide (x ∉ id :: seen)) = fun x => !(x == id) && decide (x ∉ seen) := by
        funext x
        rw [Bool.eq_iff_iff]
        simp
      rw [hunseen]
      rfl

theorem find?_eraseDups (p : Int → Bool) (ids : List Int) : ids.eraseDups.find? p = ids.find? p := by
  match ids with
  | [] => rfl
  | id :: ids =>
    rw [List.eraseDups_cons]
    cases hp : p id with
    | true => rw [List.find?_cons_of_pos hp, List.find?_cons_of_pos hp]
    | false =>
      have hp' : ¬p id := by simp [hp]
      rw [List.find?_cons_of_neg hp', List.find?_cons_of_neg hp', find?_eraseDups, List.find?_filter]
      congr 1
      funext x
      by_cases hx : x = id <;> simp [hx, hp]
termination_by ids.length
decreasing_by exact Nat.lt_succ_of_le (List.length_filter_le _ _)

theorem nodup_eraseDups (ids : List Int) : ids.eraseDups.Nodup := by
  match ids with
  | [] => exact List.nodup_nil
  | id :: ids =>
    rw [List.eraseDups_cons, List.nodup_cons]
    exact ⟨by simp, nodup_eraseDups _⟩
termination_by ids.length
decreasing_by exact Nat.lt_succ_of_le (List.length_filter_le _ _)

section

variable {s : Store} {ids : List Int}

theorem rowIds_of_ints (h : ∀ id ∈ ids, Column.checkInt id = .ok ()) :
    (ids.map Value.int).mapM Store.rowId? = .ok (ids.map some) := by
  rw [List.mapM_map]
  exact mapM_eq_ok_map fun id hid => Store.rowId?_int (h id hid)

theorem find?_found {id : Int} (hid : id ∈ ids) :
    (s.leads.filter fun l => (ids.map some).contains (some l.id)).find? (fun l => Value.same (.int id) (.int l.id)) =
      s.lead? id := by
  rw [List.find?_filter, Store.lead?]
  congr 1
  funext l
  rw [Value.same_int, Bool.eq_iff_iff]
  simp only [decide_eq_true_eq]
  constructor
  . intro h
    exact h.2.symm
  . rintro rfl
    simpa using hid

theorem candidates_of_many (hmany : ¬ids.length ≤ Store.mostVariables) :
    candidates (ids.map .int) s = .error (.broken .overloaded) := by
  unfold candidates Store.checkVariables
  rw [List.length_map, if_neg hmany]
  rfl

variable (hfew : ids.length ≤ Store.mostVariables)

include hfew

theorem checkVariables_ints : Store.checkVariables (ids.map Value.int).length = .ok () := by
  rw [List.length_map]
  exact if_pos hfew

theorem candidates_of_known (h : ∀ id ∈ ids, Column.checkInt id = .ok ())
    (hknown : ∀ id ∈ ids, s.lead? id ≠ none) : candidates (ids.map .int) s = .ok (ids.map .ofId) := by
  unfold candidates
  rw [checkVariables_ints hfew, rowIds_of_ints h]
  dsimp only [bind, Except.bind]
  rw [List.mapM_map]
  apply mapM_eq_ok_map
  intro id hid
  simp only [Function.comp_apply, find?_found hid]
  cases hl : s.lead? id with
  | none => exact absurd hl (hknown id hid)
  | some l =>
    have hfound : l.id = id := by simpa using List.find?_some hl
    dsimp only
    rw [hfound]
    rfl

theorem candidates_of_missing (h : ∀ id ∈ ids, Column.checkInt id = .ok ()) {missing : Int}
    (hmissing : ids.find? (fun id => (s.lead? id).isNone) = some missing) :
    candidates (ids.map .int) s = .error (.refused (.notFound "Lead" (.int missing))) := by
  unfold candidates
  rw [checkVariables_ints hfew, rowIds_of_ints h]
  dsimp only [bind, Except.bind]
  rw [List.mapM_map]
  apply mapM_eq_error hmissing
  . intro id hid hthere
    simp only [Function.comp_apply, find?_found hid]
    cases hl : s.lead? id with
    | none => simp [hl] at hthere
    | some l => exact ⟨_, rfl⟩
  . have hnone : s.lead? missing = none := by simpa using List.find?_some hmissing
    simp only [Function.comp_apply, find?_found (List.mem_of_find?_eq_some hmissing), hnone]

theorem candidates_of_unfit (h : ∃ id ∈ ids, Column.checkInt id ≠ .ok ()) :
    candidates (ids.map .int) s = .error (.broken .tooLarge) := by
  have hrows : (ids.map Value.int).mapM Store.rowId? = .error (.broken .tooLarge) := by
    obtain ⟨id, hid, hunfit⟩ := h
    have hsome : (ids.find? fun id => !(Column.checkInt id).isOk).isSome := by
      rw [List.find?_isSome]
      exact ⟨id, hid, by simp [Column.checkInt_eq_error hunfit, Except.isOk, Except.toBool]⟩
    obtain ⟨first, hfirst⟩ := Option.isSome_iff_exists.mp hsome
    rw [List.mapM_map]
    apply mapM_eq_error hfirst
    . intro x _ hx
      cases hcheck : Column.checkInt x with
      | error e => simp [hcheck, Except.isOk, Except.toBool] at hx
      | ok u => exact ⟨_, Store.rowId?_int hcheck⟩
    . have hno := List.find?_some hfirst
      cases hcheck : Column.checkInt first with
      | ok u => simp [hcheck, Except.isOk, Except.toBool] at hno
      | error e =>
        have hunfit : Column.checkInt first ≠ .ok () := by simp [hcheck]
        exact Store.rowId?_of_unfit hunfit
  unfold candidates
  rw [checkVariables_ints hfew, hrows]
  rfl

end

/-! ## The whole batch -/

section

variable {c : Call} {s : Store} {note : Value} {pipeline : Int} {ids : List Int} {skip : Bool}

theorem entries_of_views {window : Value} {now : Instant} {entries : List Entry} {views : List EntryView}
    (h : entries.mapM (s.view window now) = .ok views) : views.map (·.entry) = entries := by
  induction entries generalizing views with
  | nil =>
    cases h
    rfl
  | cons e entries ih =>
    simp only [List.mapM_cons, bind_eq_ok, pure, Except.pure, Except.ok.injEq] at h
    obtain ⟨v, hv, rest, hrest, rfl⟩ := h
    rw [List.map_cons, ih hrest, Store.entry_of_view hv]

theorem names_of_ints (ids : List Int) :
    (do distinct [] (← (Value.list (ids.map .int)).elements)) = .ok (ids.eraseDups.map .int) := by
  have hnames := distinct_ints [] ids
  have hall : ids.filter (· ∉ []) = ids := by simp
  rw [hall] at hnames
  exact hnames

/-- What is done with leads once they are found, and a batch without any leads does no less. -/
def enrollingFound (c : Call) (pipeline : Int) (skip : Bool) (note : Value) (ids : List Int) : Transaction Bulk := do
  let leads ← Transaction.reading (candidates (ids.eraseDups.map .int))
  let (entries, skips) ← openEach c (.int pipeline) pipeline skip note leads
  let views ← Transaction.reading fun s => entries.mapM (s.view c.window c.now)
  return ⟨views, skips⟩

theorem enrollingMany_of_enrollable {p : Pipeline} (hp : enrollable (.int pipeline) s = .ok p) :
    enrollingMany c (.list (ids.map .int)) (.int pipeline) skip note s =
      enrollingFound c pipeline skip note ids s := by
  unfold enrollingMany enrollingFound
  rw [reading_bind_of_ok (names_of_ints ids), reading_bind_of_ok hp, id_of_enrollable hp]
  cases ids.eraseDups <;> rfl

theorem enrollingFound_of_error {f : Fault} (hleads : candidates (ids.eraseDups.map .int) s = .error f) :
    enrollingFound c pipeline skip note ids s = .error f :=
  reading_bind_of_error hleads _

theorem enrollingFound_of_batch_error {f : Fault}
    (hleads : candidates (ids.eraseDups.map .int) s = .ok (ids.eraseDups.map .ofId))
    (hopen : openEach c (.int pipeline) pipeline skip note (ids.eraseDups.map .ofId) s = .error f) :
    enrollingFound c pipeline skip note ids s = .error f := by
  unfold enrollingFound
  rw [reading_bind_of_ok hleads]
  exact Transaction.bind_of_error hopen _

theorem enrollingFound_of_batch {entries : List Entry} {skips : List Skip} {views : List EntryView} {s' : Store}
    (hleads : candidates (ids.eraseDups.map .int) s = .ok (ids.eraseDups.map .ofId))
    (hopen : openEach c (.int pipeline) pipeline skip note (ids.eraseDups.map .ofId) s = .ok ((entries, skips), s'))
    (hviews : entries.mapM (s'.view c.window c.now) = .ok views) :
    enrollingFound c pipeline skip note ids s = .ok (⟨views, skips⟩, s') := by
  unfold enrollingFound
  rw [reading_bind_of_ok hleads]
  refine (Transaction.bind_of_ok hopen _).trans ?_
  exact (reading_bind_of_ok hviews _).trans rfl

end

/-- What the enrollment of many leads comes to, which are named by ids, once the pipeline can take leads. -/
structure BulkLaw (c : Call) (pipeline : Int) (note : Value) (ids : List Int) (s : Service) : Prop where
  /-- More ids than one query takes cannot be asked for, whatever they are. -/
  crowded : ¬AreFew ids → ∀ skip,
    (enrollMany c (.list (ids.map .int)) (.int pipeline) skip note s).1 = .error (.broken .overloaded) ∧
      (enrollMany c (.list (ids.map .int)) (.int pipeline) skip note s).2.store = s.store
  /-- An id that is beyond the column of ids cannot be asked for. -/
  unfit : AreFew ids → (∃ id ∈ ids, Column.checkInt id ≠ .ok ()) → ∀ skip,
    (enrollMany c (.list (ids.map .int)) (.int pipeline) skip note s).1 = .error (.broken .tooLarge) ∧
      (enrollMany c (.list (ids.map .int)) (.int pipeline) skip note s).2.store = s.store
  missing : AreFew ids → (∀ id ∈ ids, Column.checkInt id = .ok ()) →
    ∀ id, ids.find? (fun id => (s.store.lead? id).isNone) = some id → ∀ skip,
      (enrollMany c (.list (ids.map .int)) (.int pipeline) skip note s).1 =
          .error (.refused (.notFound "Lead" (.int id))) ∧
        (enrollMany c (.list (ids.map .int)) (.int pipeline) skip note s).2.store = s.store
  skipping : s.store.HasLeads ids →
    (enrollMany c (.list (ids.map .int)) (.int pipeline) true note s).1 =
        (oneByOne c pipeline note ids.eraseDups s).1 ∧
      ∃ rows, (oneByOne c pipeline note ids.eraseDups s).2.store.audit = s.store.audit ++ rows ∧
        (enrollMany c (.list (ids.map .int)) (.int pipeline) true note s).2.store =
          { (oneByOne c pipeline note ids.eraseDups s).2.store with audit := s.store.audit ++ rows.map .inBulk }
  listing : s.store.HasLeads ids →
    ∀ b, (enrollMany c (.list (ids.map .int)) (.int pipeline) true note s).1 = .ok b →
      b.enrolled.map (·.entry.lead) = vacantIn pipeline s.store ids.eraseDups ∧
        b.skipped = skipsIn pipeline s.store ids.eraseDups
  suiting : s.store.HasLeads ids → (∀ first, (s.store.stagesOf pipeline).head? = some first → c.Suits first) →
    (∃ kept, Column.text note = .ok kept) →
    (enrollMany c (.list (ids.map .int)) (.int pipeline) true note s).1.isOk
  insisting : s.store.HasLeads ids → (∀ first, (s.store.stagesOf pipeline).head? = some first → c.Suits first) →
    (∃ kept, Column.text note = .ok kept) →
    ((enrollMany c (.list (ids.map .int)) (.int pipeline) false note s).1.isOk ↔
        ∀ id ∈ ids, s.store.activeEntryIn? id pipeline = none) ∧
      ((∀ id ∈ ids, s.store.activeEntryIn? id pipeline = none) →
        (enrollMany c (.list (ids.map .int)) (.int pipeline) false note s).1 =
            (enrollMany c (.list (ids.map .int)) (.int pipeline) true note s).1 ∧
          (enrollMany c (.list (ids.map .int)) (.int pipeline) false note s).2.store =
            (enrollMany c (.list (ids.map .int)) (.int pipeline) true note s).2.store) ∧
      ∀ id e, ids.find? (fun id => (s.store.activeEntryIn? id pipeline).isSome) = some id →
        s.store.activeEntryIn? id pipeline = some e →
          (enrollMany c (.list (ids.map .int)) (.int pipeline) false note s).1 =
              .error (.refused (.alreadyEnrolled (.int id) (.int pipeline) (.int e.id) none)) ∧
            (enrollMany c (.list (ids.map .int)) (.int pipeline) false note s).2.store = s.store

section

variable {c : Call} {s : Service} {note : Value} {pipeline : Int} {ids : List Int}

theorem does_enrollMany_ints (hs : s.store.IsSound) (hc : c.IsUnhindered s) {p : Pipeline}
    (hp : enrollable (.int pipeline) s.store = .ok p) (skip : Bool) :
    Does (enrollMany c (.list (ids.map .int)) (.int pipeline) skip note) s
      (enrollingFound c pipeline skip note ids) := by
  have hkeys : ∀ names, (do distinct [] (← (Value.list (ids.map .int)).elements)) = .ok names →
      LockKey.areOrdered (names.map fun name => LockKey.entry name (.int pipeline)) := by
    intro names hnames
    rw [names_of_ints, Except.ok.injEq] at hnames
    apply LockTable.areOrdered_of_int
    rw [← hnames]
    simp
  have hdoes := does_enrollMany hs hc hkeys skip note
  unfold Does Transaction.result Transaction.rest at hdoes ⊢
  rw [enrollingMany_of_enrollable hp] at hdoes
  exact hdoes

theorem plain_signature (actor : Option String) : Plain (signature (.ofText? actor)) := by
  have htext : ∃ name, (Value.ofText? actor).orElse (.text "system") = .text name := by
    unfold Value.orElse
    split
    . cases actor with
      | none => contradiction
      | some name => exact ⟨name, rfl⟩
    . exact ⟨"system", rfl⟩
  obtain ⟨name, hname⟩ := htext
  unfold signature
  rw [hname, Plain, ends_bind]
  refine ⟨Column.plain_text _, ?_⟩
  intro kept hkept
  simp only [Column.text, bind_eq_ok, pure, Except.pure, Except.ok.injEq] at hkept
  obtain ⟨_, -, rfl⟩ := hkept
  exact ends_ok name

theorem isPlain_of_unsigned (hactor : ∃ actor : Option String, c.actor = .ofText? actor) {f : Fault} {s : Store}
    (h : signed c pipeline note s = .error f) : f.IsPlain := by
  obtain ⟨actor, hactor⟩ := hactor
  have hsignature : Plain (signature c.actor) := by
    rw [hactor]
    exact plain_signature actor
  have hsigned : Plain (signed c pipeline note s) := by
    simp [signed, terms, hsignature]
  exact hsigned f h

theorem exists_first {p : Pipeline} {s : Store} (hp : enrollable (.int pipeline) s = .ok p) :
    ∃ first, (s.stagesOf pipeline).head? = some first := by
  have hvalid := (enrollable_eq_ok.mp hp).2.2
  rw [Store.validate, id_of_enrollable hp] at hvalid
  cases hstages : s.stagesOf pipeline with
  | nil =>
    rw [hstages] at hvalid
    cases hvalid
  | cons first stages => exact ⟨first, rfl⟩

theorem exists_signed (hk : s.store.IsConsistent) {p : Pipeline} (hp : enrollable (.int pipeline) s.store = .ok p)
    (hsuits : ∀ first, (s.store.stagesOf pipeline).head? = some first → c.Suits first)
    (hnote : ∃ kept, Column.text note = .ok kept) : ∃ t actor, signed c pipeline note s.store = .ok (t, actor) := by
  obtain ⟨first, hfirst⟩ := exists_first hp
  obtain ⟨kept, hkept⟩ := hnote
  obtain ⟨⟨actor, hactor⟩, hwindow, ⟨due, hdue⟩⟩ := hsuits first hfirst
  have hdeadline := hk.deadlines first (Store.mem_of_head?_stagesOf hfirst).1
  obtain ⟨health, hhealth⟩ := Health.exists_of hdeadline hwindow hdue c.now
  refine ⟨⟨first, kept, health.bucket⟩, actor, ?_⟩
  simp only [signed, terms, hfirst, Store.follow, hkept, hhealth, hactor, bind, Except.bind, pure, Except.pure]

theorem candidates_of_hasLeads {s : Store} (h : s.HasLeads ids) :
    candidates (ids.eraseDups.map .int) s = .ok (ids.eraseDups.map .ofId) := by
  apply candidates_of_known h.few
  . intro id hid
    exact (h.known id (List.mem_eraseDups.mp hid)).1
  . intro id hid
    exact Option.isSome_iff_ne_none.mp (h.known id (List.mem_eraseDups.mp hid)).2

theorem exists_taken {s : Store} (h : ¬∀ id ∈ ids, s.activeEntryIn? id pipeline = none) :
    ∃ id e, ids.find? (fun id => (s.activeEntryIn? id pipeline).isSome) = some id ∧
      s.activeEntryIn? id pipeline = some e := by
  have hsome : (ids.find? fun id => (s.activeEntryIn? id pipeline).isSome).isSome := by
    rw [List.find?_isSome]
    simpa [Option.isSome_iff_ne_none] using h
  obtain ⟨id, hid⟩ := Option.isSome_iff_exists.mp hsome
  have hfound := List.find?_some hid
  obtain ⟨e, he⟩ := Option.isSome_iff_exists.mp hfound
  exact ⟨id, e, hid, he⟩

theorem enrollMany_of_error (hs : s.store.IsSound) (hc : c.IsUnhindered s) {p : Pipeline}
    (hp : enrollable (.int pipeline) s.store = .ok p) {skip : Bool} {f : Fault}
    (h : enrollingFound c pipeline skip note ids s.store = .error f) :
    (enrollMany c (.list (ids.map .int)) (.int pipeline) skip note s).1 = .error f ∧
      (enrollMany c (.list (ids.map .int)) (.int pipeline) skip note s).2.store = s.store := by
  obtain ⟨s', hanswer, hstore⟩ := (does_enrollMany_ints hs hc hp skip).of_error h
  rw [hanswer]
  exact ⟨rfl, hstore⟩

section

-- Leads that there are, and a pipeline that can take them.
variable {p : Pipeline} (hs : s.store.IsSound) (hc : c.IsUnhindered s)
  (hp : enrollable (.int pipeline) s.store = .ok p) (h : s.store.HasLeads ids)

include hs hc hp h

theorem isReady_of_hasLeads : IsReady c pipeline ids.eraseDups s where
  sound := hs
  unhindered := hc
  isEnrollable := ⟨p, hp⟩
  known := by
    intro id hid
    obtain ⟨hcheck, hsome⟩ := h.known id (List.mem_eraseDups.mp hid)
    obtain ⟨l, hl⟩ := Option.isSome_iff_exists.mp hsome
    refine ⟨l, ?_, by simpa using List.find?_some hl⟩
    rw [Store.lead, Store.require_int hcheck, hl]

theorem enrollMany_of_batch {skip : Bool} {b : Batch}
    (hopen : openEach c (.int pipeline) pipeline skip note (ids.eraseDups.map .ofId) s.store =
      .ok ((b.entries, b.skips), b.store))
    {views : List EntryView} (hstages : b.store.stages = s.store.stages)
    (hviews : b.entries.mapM (s.store.view c.window c.now) = .ok views) :
    ∃ s', enrollMany c (.list (ids.map .int)) (.int pipeline) skip note s = (.ok ⟨views, b.skips⟩, s') ∧
      s'.store = b.store := by
  have hsame : b.store.view c.window c.now = s.store.view c.window c.now :=
    funext fun e => Store.view_congr hstages c.window c.now e
  rw [← hsame] at hviews
  exact (does_enrollMany_ints hs hc hp skip).of_ok
    (enrollingFound_of_batch (candidates_of_hasLeads h) hopen hviews)

theorem skipping_of_signed {t : Terms} {actor : String} (hsigned : signed c pipeline note s.store = .ok (t, actor)) :
    let b := t.batch c pipeline true actor ids.eraseDups s.store
    ∃ views s₁ s₂, oneByOne c pipeline note ids.eraseDups s = (.ok ⟨views, b.skips⟩, s₁) ∧
      enrollMany c (.list (ids.map .int)) (.int pipeline) true note s = (.ok ⟨views, b.skips⟩, s₂) ∧
      Marks s.store.audit s₁.store s₂.store ∧ b.entries.mapM (s.store.view c.window c.now) = .ok views ∧
      s₂.store = b.store := by
  intro b
  obtain ⟨hentries, hskips, hmarks⟩ := (Marks.refl s.store).batch t c pipeline actor ids.eraseDups
  obtain ⟨views, s₁, hone, hstore, hviews⟩ := oneByOne_of_signed (isReady_of_hasLeads hs hc hp h) hsigned
  rw [← hentries] at hviews
  rw [← hskips] at hone
  rw [← hstore] at hmarks
  obtain ⟨s₂, hmany, hstore'⟩ := enrollMany_of_batch hs hc hp h (openEach_of_signed hsigned _)
    (t.batch_stages _ _) hviews
  rw [← hstore'] at hmarks
  exact ⟨views, s₁, s₂, hone, hmany, hmarks, hviews, hstore'⟩

theorem skipping_of_unsigned {f : Fault} (hf : f.IsPlain)
    (hsigned : signed c pipeline note s.store = .error f) :
    let answer := (skipsOr f pipeline s.store ids.eraseDups).map (⟨[], ·⟩)
    ∃ s₁ s₂, oneByOne c pipeline note ids.eraseDups s = (answer, s₁) ∧
      enrollMany c (.list (ids.map .int)) (.int pipeline) true note s = (answer, s₂) ∧
      s₁.store = s.store ∧ s₂.store = s.store := by
  intro answer
  obtain ⟨s₁, hone, hstore⟩ := oneByOne_of_unsigned (isReady_of_hasLeads hs hc hp h) hf hsigned
  have hopen := openEach_of_unsigned hsigned hf ids.eraseDups
  cases hskips : skipsOr f pipeline s.store ids.eraseDups with
  | error e =>
    rw [hskips] at hopen
    obtain ⟨s₂, hmany, hstore'⟩ := (does_enrollMany_ints hs hc hp true).of_error
      (enrollingFound_of_batch_error (candidates_of_hasLeads h) hopen)
    refine ⟨s₁, s₂, hone, ?_, hstore, hstore'⟩
    rw [hmany]
    simp only [answer, hskips]
    rfl
  | ok skips =>
    rw [hskips] at hopen
    obtain ⟨s₂, hmany, hstore'⟩ := enrollMany_of_batch (b := ⟨[], skips, s.store⟩) hs hc hp h hopen rfl rfl
    refine ⟨s₁, s₂, hone, ?_, hstore, hstore'⟩
    rw [hmany]
    simp only [answer, hskips]
    rfl

theorem insisting_of_vacant {t : Terms} {actor : String}
    (hsigned : signed c pipeline note s.store = .ok (t, actor))
    (hvacant : ∀ id ∈ ids, s.store.activeEntryIn? id pipeline = none) :
    (enrollMany c (.list (ids.map .int)) (.int pipeline) false note s).1 =
        (enrollMany c (.list (ids.map .int)) (.int pipeline) true note s).1 ∧
      (enrollMany c (.list (ids.map .int)) (.int pipeline) false note s).2.store =
        (enrollMany c (.list (ids.map .int)) (.int pipeline) true note s).2.store := by
  obtain ⟨views, s₁, s₂, -, hmany, -, hviews, hstore⟩ := skipping_of_signed hs hc hp h hsigned
  have hopen := openEach_of_vacant hsigned (nodup_eraseDups ids)
    fun id hid => hvacant id (List.mem_eraseDups.mp hid)
  obtain ⟨s', hall, hstore'⟩ := enrollMany_of_batch hs hc hp h hopen (t.batch_stages _ _) hviews
  rw [hall, hmany]
  exact ⟨rfl, hstore'.trans hstore.symm⟩

theorem insisting_of_taken {t : Terms} {actor : String}
    (hsigned : signed c pipeline note s.store = .ok (t, actor)) (id : Int) (e : Entry)
    (hid : ids.find? (fun id => (s.store.activeEntryIn? id pipeline).isSome) = some id)
    (hactive : s.store.activeEntryIn? id pipeline = some e) :
    (enrollMany c (.list (ids.map .int)) (.int pipeline) false note s).1 =
        .error (.refused (.alreadyEnrolled (.int id) (.int pipeline) (.int e.id) none)) ∧
      (enrollMany c (.list (ids.map .int)) (.int pipeline) false note s).2.store = s.store := by
  rw [← find?_eraseDups] at hid
  apply enrollMany_of_error hs hc hp
  exact enrollingFound_of_batch_error (candidates_of_hasLeads h)
    (openEach_of_taken hsigned (nodup_eraseDups ids) hid hactive)

end

theorem bulkLaw_of_ready (hs : s.store.IsSound) (hk : s.store.IsConsistent) (hc : c.IsUnhindered s) {p : Pipeline}
    (hp : enrollable (.int pipeline) s.store = .ok p) (hactor : ∃ actor : Option String, c.actor = .ofText? actor)
    (note : Value) (ids : List Int) : BulkLaw c pipeline note ids s where
  crowded := by
    intro hmany skip
    apply enrollMany_of_error hs hc hp
    exact enrollingFound_of_error (candidates_of_many hmany)
  unfit := by
    rintro hfew ⟨id, hid, hunfit⟩ skip
    apply enrollMany_of_error hs hc hp
    apply enrollingFound_of_error
    exact candidates_of_unfit hfew ⟨id, List.mem_eraseDups.mpr hid, hunfit⟩
  missing := by
    intro hfew hfit id hid skip
    apply enrollMany_of_error hs hc hp
    apply enrollingFound_of_error
    apply candidates_of_missing hfew
    . intro x hx
      exact hfit x (List.mem_eraseDups.mp hx)
    . rw [find?_eraseDups]
      exact hid
  skipping := by
    intro h
    cases hsigned : signed c pipeline note s.store with
    | ok r =>
      obtain ⟨views, s₁, s₂, hone, hmany, ⟨rows, haudit, hstore⟩, -, -⟩ := skipping_of_signed hs hc hp h hsigned
      rw [hone, hmany]
      exact ⟨rfl, rows, haudit, hstore⟩
    | error f =>
      obtain ⟨s₁, s₂, hone, hmany, hstore, hstore'⟩ :=
        skipping_of_unsigned hs hc hp h (isPlain_of_unsigned hactor hsigned) hsigned
      rw [hone, hmany]
      dsimp only
      rw [hstore, hstore']
      exact ⟨rfl, [], by simp, by simp⟩
  listing := by
    intro h b hb
    cases hsigned : signed c pipeline note s.store with
    | ok r =>
      obtain ⟨views, s₁, s₂, -, hmany, -, hviews, -⟩ := skipping_of_signed hs hc hp h hsigned
      rw [hmany] at hb
      cases hb
      obtain ⟨hskips, hleads⟩ := r.1.batch_lists (nodup_eraseDups ids)
      rw [← hleads, ← entries_of_views hviews, List.map_map]
      exact ⟨rfl, hskips⟩
    | error f =>
      obtain ⟨s₁, s₂, -, hmany, -, -⟩ :=
        skipping_of_unsigned hs hc hp h (isPlain_of_unsigned hactor hsigned) hsigned
      rw [hmany] at hb
      cases hskips : skipsOr f pipeline s.store ids.eraseDups with
      | error e =>
        rw [hskips] at hb
        cases hb
      | ok skips =>
        rw [hskips] at hb
        cases hb
        obtain ⟨hskipped, hvacant⟩ := lists_of_skipsOr hskips
        exact ⟨hvacant.symm, hskipped⟩
  suiting := by
    intro h hsuits hnote
    obtain ⟨t, actor, hsigned⟩ := exists_signed hk hp hsuits hnote
    obtain ⟨views, s₁, s₂, -, hmany, -⟩ := skipping_of_signed hs hc hp h hsigned
    rw [hmany]
    rfl
  insisting := by
    intro h hsuits hnote
    obtain ⟨t, actor, hsigned⟩ := exists_signed hk hp hsuits hnote
    have hnew := insisting_of_vacant hs hc hp h hsigned
    have htaken := insisting_of_taken hs hc hp h hsigned
    refine ⟨⟨?_, ?_⟩, hnew, htaken⟩
    . intro hok
      by_contra hactive
      obtain ⟨id, e, hid, he⟩ := exists_taken hactive
      rw [(htaken id e hid he).1] at hok
      cases hok
    . intro hvacant
      obtain ⟨views, s₁, s₂, -, hmany, -⟩ := skipping_of_signed hs hc hp h hsigned
      rw [(hnew hvacant).1, hmany]
      rfl

end

end Enrollment

namespace Service

open Enrollment

/-- In every store that is reached, the enrollment of many leads is their enrollment one by one. -/
theorem reached_enrollMany (ts : List Turn) {c : Call} (hc : c.IsUnhindered (reached ts))
    (hactor : ∃ actor : Option String, c.actor = .ofText? actor) {pipeline : Int} {p : Pipeline}
    (hp : (reached ts).store.pipeline (.int pipeline) = .ok p) (hactive : p.isActive)
    (hvalid : (reached ts).store.validate p = .ok ()) (note : Value) (ids : List Int) :
    BulkLaw c pipeline note ids (reached ts) :=
  bulkLaw_of_ready (isSound_reached ts) (isConsistent_reached ts) hc
    (enrollable_eq_ok.mpr ⟨hp, hactive, hvalid⟩) hactor note ids

def waiting : List Turn :=
  -- Two leads, of which one is in the pipeline and the other is not.
  let stages : Value := .list [.object [("name", .text "New")], .object [("name", .text "Won")]]
  Turn.allIn ⟨⟨63908038800000000⟩, .int 1, .int 0⟩
    [.createLead [("name", .text "Ada")],
      .createLead [("name", .text "Bob")],
      .createPipeline (.text "system") (.object [("name", .text "Sales"), ("stages", stages)]),
      .enroll ⟨.text "system", none, .null⟩ (.int 1) (.int 1) .null] (by decide)

theorem reached_enrollMany_waiting :
    let s := reached waiting
    let c : Call := ⟨.text "system", ⟨63908038800000000⟩, .int 1, .null⟩
    s.store.HasLeads [2, 1, 2] ∧ BulkLaw c 1 .null [2, 1, 2] s ∧
      ∃ b, (enrollMany c (.list ([2, 1, 2].map .int)) (.int 1) true .null s).1 = .ok b ∧
        b.enrolled.map (·.entry.lead) = [2] ∧ b.skipped = [⟨.int 1, 1⟩] := by
  intro s c
  have hfree : s.locks.table = [] := by decide +kernel
  have hc : c.IsUnhindered s := ⟨by simp [hfree, LockTable.IsFree], rfl, .null, rfl, rfl⟩
  have hknown : s.store.HasLeads [2, 1, 2] := by
    refine ⟨by decide, ?_⟩
    intro id hid
    simp only [List.mem_cons, List.not_mem_nil, or_false] at hid
    rcases hid with rfl | rfl | rfl <;> exact ⟨rfl, by decide +kernel⟩
  obtain ⟨p, hrow, hactive, hvalid⟩ : ∃ p, s.store.pipeline? 1 = some p ∧ p.isActive ∧ (s.store.validate p).isOk :=
    ⟨s.store.pipelines.head (by decide +kernel), by decide +kernel, by decide +kernel, by decide +kernel⟩
  have hp : s.store.pipeline (.int 1) = .ok p := by rw [Store.pipeline, Store.require_int rfl, hrow]
  obtain ⟨_, hvalid⟩ := exists_of_isOk hvalid
  have hlaw := reached_enrollMany waiting hc ⟨some "system", rfl⟩ hp hactive hvalid .null [2, 1, 2]
  have hok : (enrollMany c (.list ([2, 1, 2].map .int)) (.int 1) true .null s).1.isOk := by decide +kernel
  obtain ⟨b, hb⟩ := exists_of_isOk hok
  obtain ⟨henrolled, hskipped⟩ := hlaw.listing hknown b hb
  refine ⟨hknown, hlaw, b, hb, ?_, ?_⟩
  . rw [henrolled]
    decide +kernel
  . rw [hskipped]
    decide +kernel

/-- An id or a note that no column can keep is refused for that, whatever leads there are. -/
theorem enrollMany_beyond_columns :
    (¬∀ (ts : List Turn) (c : Call) (pipeline : Int) (ids : List Int) (id : Int), c.IsUnhindered (reached ts) →
      (∃ p, enrollable (.int pipeline) (reached ts).store = .ok p) →
      ids.find? (fun id => ((reached ts).store.lead? id).isNone) = some id →
        (enrollMany c (.list (ids.map .int)) (.int pipeline) true .null (reached ts)).1 =
          .error (.refused (.notFound "Lead" (.int id)))) ∧
    ¬∀ (ts : List Turn) (c : Call) (pipeline : Int) (note : String) (ids : List Int), c.IsUnhindered (reached ts) →
      (∃ p, enrollable (.int pipeline) (reached ts).store = .ok p) → (reached ts).store.HasLeads ids →
      (∀ id ∈ ids, (reached ts).store.activeEntryIn? id pipeline = none) →
        (enrollMany c (.list (ids.map .int)) (.int pipeline) false (.text note) (reached ts)).1.isOk := by
  have hfree : (reached waiting).locks.table = [] := by decide +kernel
  let c : Call := ⟨.text "system", ⟨63908038800000000⟩, .int 1, .null⟩
  have hc : c.IsUnhindered (reached waiting) := ⟨by simp [hfree, LockTable.IsFree], rfl, .null, rfl, rfl⟩
  have hp : ∃ p, enrollable (.int 1) (reached waiting).store = .ok p := exists_of_isOk (by decide +kernel)
  constructor
  . intro h
    have hanswer := h waiting c 1 [2 ^ 63] (2 ^ 63) hc hp (by decide +kernel)
    obtain ⟨p, hp⟩ := hp
    have hlaw := bulkLaw_of_ready (isSound_reached waiting) (isConsistent_reached waiting) hc hp
      ⟨some "system", rfl⟩ .null [2 ^ 63]
    rw [(hlaw.unfit (by decide) ⟨2 ^ 63, by simp, by simp [Column.checkInt_eq_ok, Column.wordLimit]⟩ true).1] at hanswer
    cases hanswer
  . intro h
    have hleads : (reached waiting).store.HasLeads [2] := by
      refine ⟨by decide, ?_⟩
      intro id hid
      rw [List.mem_singleton] at hid
      rw [hid]
      exact ⟨rfl, by decide +kernel⟩
    have hok := h waiting c 1 (String.singleton (Text.ofCodePoint 0xd800)) [2] hc hp hleads (by decide +kernel)
    revert hok
    decide +kernel

end Service

end StageGate
