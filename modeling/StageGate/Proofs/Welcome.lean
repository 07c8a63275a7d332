import StageGate.Proofs.Layout

/-!
This module contains which commands a service carries out or refuses, and never breaks down on: what they bring with
them can be stored, there is room for it, and no judgement stumbles over it.
-/

namespace StageGate

/-! ## Leads -/

/-- The members of a lead can be kept in its columns. -/
structure Lead.IsWritable (values : Fields) : Prop where
  texts : ∀ key ∈ ["name", "email", "phone", "company", "source"], (Fields.getD values key .null).IsWritable
  score : ∃ kept, Column.number (Fields.getD values "lead_score" .null) = .ok kept
  custom : (Fields.getD values "custom_fields" .null).isWritable

namespace Direct

theorem exists_addLead_document {now : Instant} {s : Store} {name : String} {email phone company source score : Value}
    {custom : Fields} (h : Lead.IsWritable (Lead.document name email phone company source score custom))
    (hjson : Value.haveJson custom) :
    ∃ l s', addLead now (Lead.document name email phone company source score custom) s = .ok (l, s') := by
  obtain ⟨htexts, hscore, hwritable⟩ := h
  generalize hvalues : Lead.document name email phone company source score custom = values at htexts hscore hwritable ⊢
  have hget {key : String} {v : Value} (hv : values.get? key = some v) : Fields.getD values key .null = v := by
    rw [Fields.getD, hv]
    rfl
  have htext {key : String} (hkey : key ∈ ["name", "email", "phone", "company", "source"]) {v : Value}
      (hv : values.get? key = some v) : prepare .text v = .ok () ∧ ∃ w, keep .text v = .ok w := by
    obtain ⟨kept, hkept⟩ := htexts key hkey
    rw [hget hv] at hkept
    refine ⟨rfl, .ofText? kept, ?_⟩
    rw [keep, hkept]
    rfl
  have hname : values.get? "name" = some (.text name) := by rw [← hvalues]; rfl
  have hid : values.get? "id" = none := by rw [← hvalues]; rfl
  refine exists_addLead ?_ hid hname ?_
  . rw [← hvalues]
    intro f hf
    have hkeys : ∀ key ∈ ["name", "email", "phone", "company", "source", "lead_score", "custom_fields"],
        ¬isTime key ∧ ∃ a ∈ attributes .lead, a.name = key := by decide
    exact hkeys f.1 (List.mem_map_of_mem (f := fun f : String × Value => f.1) hf)
  . intro a ha v hv _
    rw [attributes_lead] at ha
    simp only [List.mem_cons, List.not_mem_nil, or_false] at ha
    rcases ha with rfl | rfl | rfl | rfl | rfl | rfl | rfl | rfl | rfl | rfl
    . exact absurd (hv.symm.trans hid) (Option.some_ne_none v)
    . exact htext (by simp [Attribute.required]) hv
    . exact htext (by simp [Attribute.optional]) hv
    . exact htext (by simp [Attribute.optional]) hv
    . exact htext (by simp [Attribute.optional]) hv
    . exact htext (by simp [Attribute.optional]) hv
    . rw [← hget hv]
      exact ⟨rfl, hscore⟩
    . rw [hget hv] at hwritable
      have hcustom : v = .object custom := by
        rw [← hvalues] at hv
        exact (Option.some.inj hv).symm
      subst hcustom
      have hdocument : Column.isDocument (.object custom) := Value.haveDocuments_of_haveJson hjson
      exact ⟨Configuration.checkDocument_eq_ok.mpr ⟨hdocument, hwritable⟩, _, rfl⟩
    . have hnone : values.get? "created_at" = none := by rw [← hvalues]; rfl
      exact absurd (hv.symm.trans hnone) (Option.some_ne_none v)
    . have hnone : values.get? "updated_at" = none := by rw [← hvalues]; rfl
      exact absurd (hv.symm.trans hnone) (Option.some_ne_none v)

end Direct

/-! ## Flags -/

namespace Flagging

open Transaction Configuration

theorem risks_setFlag {Q : Breakdown → Prop} {a : Author} {s : Store} {flag : Flag} {lead criterion : Int} {value : Bool}
    {notes : Value} (hs : s.HasStorable) (ha : ∃ actor, signature a.name = .ok actor) (hname : a.name.IsWritable)
    (hlead : Column.checkInt lead = .ok ()) (hcriterion : Column.checkInt criterion = .ok ()) (hnotes : notes.IsWritable) :
    (setFlag a (.int lead) (.int criterion) flag value notes).Risks Q s := by
  unfold setFlag
  apply risks_reading_bind (Store.risks_require hlead)
  intro l _
  apply risks_reading_bind
  . unfold requireSettled
    refine ends_bind.mpr ⟨Store.risks_require hcriterion, fun c _ => ?_⟩
    dsimp only
    split
    . exact ends_error.mpr trivial
    . exact ends_ok _
  intro c hc
  have hmem : c ∈ s.criteria := by
    unfold requireSettled at hc
    obtain ⟨x, hx, hc⟩ := bind_eq_ok.mp hc
    split at hc
    . cases hc
    . cases hc
      exact Store.mem_of_criterion hx
  apply risks_reading_bind
  . unfold row?
    rw [Store.rowId?_int hlead, Store.rowId?_int hcriterion]
    exact ends_ok _
  intro old _
  apply risks_get_bind
  apply risks_lift_bind (risks_of_exists hname)
  intro validatedBy _
  apply risks_lift_bind (risks_of_exists (Column.exists_renew hnotes _))
  intro notes _
  apply risks_bind
  . unfold saveRow
    split <;> exact risks_modify
  intro _ s' hsave
  have hstages : s'.stages = s.stages := by
    unfold saveRow at hsave
    split at hsave <;> rw [← modify_eq_ok.mp hsave]
  obtain ⟨stage, -, hstage⟩ := Store.exists_find?_of_mem_map (hs c hmem).2
  apply risks_reading_bind (risks_of_ok (a := stage) ?_)
  . intro stage _
    exact risks_bind (risks_record ha) fun _ _ _ => risks_pure _
  . rw [Store.follow_eq_ok, Store.stage?, hstages]
    exact hstage

end Flagging

/-! ## Commands -/

/-- What gets into the first stage of a pipeline at a time is due there in the calendar. -/
def Store.IsTimelyAt (s : Store) (now : Instant) (pipeline : Int) : Prop :=
  ∀ first, (s.stagesOf pipeline).head? = some first → now.Reaches first.deadline

namespace Command

/-- A name that changes are signed with. -/
def IsName (actor : Value) : Prop :=
  actor.IsWritable ∧ ∃ name, Transaction.signature actor = .ok name

open Configuration

/-- What commands bring with them fits into its columns and can be judged, and there is room for what they create. -/
inductive IsWelcome (env : Environment) (s : Store) : Command → Prop where
  | createLead {values : Fields} (writable : Lead.IsWritable values) : IsWelcome env s (.createLead values)
  | createPipeline {actor : Value} {fields : Fields} (signed : IsName actor) (document : IsPipelineDocument fields) :
      IsWelcome env s (.createPipeline actor (.object fields))
  | addStage {actor : Value} {pipeline : Int} {fields : Fields} (signed : IsName actor)
      (pipeline_fits : Column.checkInt pipeline = .ok ())
      (room : (s.rowsOf pipeline).length + 1 < Column.wordLimit) (document : IsStageDocument fields) :
      IsWelcome env s (.addStage actor (.int pipeline) (.object fields))
  | addCriterion {actor : Value} {stage : Int} {fields : Fields} (signed : IsName actor)
      (stage_fits : Column.checkInt stage = .ok ()) (room : (s.criteriaOf stage).length < Column.wordLimit)
      (document : IsCriterionDocument fields) : IsWelcome env s (.addCriterion actor (.int stage) (.object fields))
  | updateCriterion {actor : Value} {criterion : Int} {fields : Fields} {shared : Bool} (signed : IsName actor)
      (criterion_fits : Column.checkInt criterion = .ok ()) (document : IsCriterionDocument fields) :
      IsWelcome env s (.updateCriterion actor (.int criterion) (.object fields) shared)
  | setFlag {actor : Value} {flag : Flagging.Flag} {lead criterion : Int} {value : Bool} {notes : Value}
      (signed : IsName actor) (lead_fits : Column.checkInt lead = .ok ())
      (criterion_fits : Column.checkInt criterion = .ok ()) (notes_fit : notes.IsWritable) :
      IsWelcome env s (.setFlag actor flag (.int lead) (.int criterion) value notes)
  | history {entry : Int} (entry_fits : Column.checkInt entry = .ok ()) : IsWelcome env s (.history (.int entry))
  | enroll {caller : Caller} {lead note : Value} {pipeline : Int}
      (fit : IsFit env (.enroll caller lead (.int pipeline) note))
      (timely : s.IsTimelyAt (run.call env caller).now pipeline) :
      IsWelcome env s (.enroll caller lead (.int pipeline) note)
  | enrollMany {caller : Caller} {leads note : Value} {pipeline : Int} {skipExisting : Bool}
      (fit : IsFit env (.enrollMany caller leads (.int pipeline) skipExisting note))
      (timely : s.IsTimelyAt (run.call env caller).now pipeline) :
      IsWelcome env s (.enrollMany caller leads (.int pipeline) skipExisting note)
  | transfer {caller : Caller} {entry reason note : Value} {pipeline : Int}
      (fit : IsFit env (.transfer caller entry (.int pipeline) reason note))
      (timely : s.IsTimelyAt (run.call env caller).now pipeline) :
      IsWelcome env s (.transfer caller entry (.int pipeline) reason note)
  | advance {caller : Caller} {entry note : Value} {target : Int} {knowledge : Advancement.Knowledge}
      (fit : IsFit env (.advance caller entry (.int target) knowledge note))
      (timely : ∀ stage, s.stage? target = some stage → ¬s.isTerminal stage →
        (run.call env caller).now.Reaches stage.deadline)
      (judged : ∀ e, s.entry entry = .ok e → Advancement.CanJudge (run.call env caller) e knowledge s) :
      IsWelcome env s (.advance caller entry (.int target) knowledge note)
  | preview {caller : Caller} {entry : Int} {knowledge : Advancement.Knowledge} (call : (run.call env caller).IsFit)
      (entry_fits : Column.checkInt entry = .ok ())
      (judged : ∀ e, s.entry (.int entry) = .ok e → Advancement.CanJudge (run.call env caller) e knowledge s) :
      IsWelcome env s (.preview caller (.int entry) knowledge)
  -- What is only looked at, or taken out of its pipeline, is due nowhere anew.
  | rests {k : Command} (fit : k.IsFit env) (rests : k.effect = .quiet ∨ k.effect = .archive) : IsWelcome env s k

section

variable {env : Environment} {s : Service} {c : Api.Context} {route : Api.Route} {k : Command}

open Operation

theorem risks_of_not_spoils (hs : s.IsReady) (fit : k.IsFit env) (h : ∀ b, ¬k.Spoils env s.store b) :
    (k.run env).Risks (fun _ => False) s :=
  StageGate.Risks.mono (risks_run hs.well fit) fun b hb => h b hb

theorem isJson_context {fields : Fields} (given : c.data = .ok (.object fields)) :
    (Fields.getD fields "context" .null).isJson :=
  Rule.isJson_getD_null (Api.Request.isJson_of_data given) "context"

theorem not_misjudges (hs : s.IsReady) {call : Call} {e : Entry} {entry context : Value}
    (judged : Advancement.CanJudge call e ⟨.null, context⟩ s.store) (found : s.store.entry entry = .ok e)
    (hcontext : context.IsObjectIfAny) (hjson : context.isJson) (b : Breakdown) :
    ¬Advancement.Misjudges call e ⟨.null, context⟩ s.store b :=
  judged.not_misjudges hs.well.consistent hs.leads (Store.mem_of_entry found) rfl hcontext hjson b

/-- A command that is welcome and that a request asks for does not break down. -/
theorem IsWelcome.risks (hs : s.IsReady) (asks : c.Asks route k) (h : k.IsWelcome c.environment s.store) :
    (k.run c.environment).Risks (fun _ => False) s := by
  cases h with
  | createLead writable =>
    cases asks with
    | createLead given names score customs =>
      have hjson := c.haveJson_custom given customs
      obtain ⟨l, s', hadd⟩ : ∃ l s', Direct.addLead c.environment.now _ s.store = .ok (l, s') :=
        Direct.exists_addLead_document writable hjson
      obtain ⟨v, hv⟩ := Api.exists_leadValue (.inr ⟨_, (Direct.of_addLead_document score hadd).1⟩ : l.custom.IsObjectIfAny)
      apply risks_commit
      apply risks_of_ok (a := (v, s'))
      rw [Transaction.bind_of_ok hadd, Transaction.reading_eq, hv]
      rfl
  | createPipeline signed document =>
    apply risks_bind
    . rw [Administration.createPipeline_eq]
      exact risks_commit (risks_createPipeline signed.2 hs.well.consistent hs.storable document)
    . exact fun _ _ _ => ends_ok _
  | @addStage _ pipeline _ signed pipeline_fits room document =>
    refine risks_bind ?_ fun _ _ _ => ends_ok _
    rw [Administration.addStage_eq]
    apply risks_reading_bind (Store.risks_require pipeline_fits)
    intro p hp
    apply risks_commit
    have hid : p.id = pipeline := by simpa using List.find?_some (Store.row?_of_require_int pipeline_fits hp)
    rw [← hid] at room
    exact risks_addStage signed.2 hs.well.counted hs.storable room document
  | @addCriterion _ id _ signed stage_fits room document =>
    apply risks_map
    rw [Administration.addCriterion_eq]
    apply risks_reading_bind (Store.risks_require stage_fits)
    intro stage hstage
    have hid : stage.id = id := by simpa using List.find?_some (Store.row?_of_require_int stage_fits hstage)
    rw [← hid] at room
    exact risks_bind (risks_commit (risks_addCriterion signed.2 document room)) fun _ _ _ => ends_ok _
  | updateCriterion signed criterion_fits document =>
    apply risks_map
    rw [Administration.updateCriterion_eq]
    apply risks_reading_bind (Store.risks_require criterion_fits)
    intro criterion hcriterion
    have hmem := Store.mem_of_criterion hcriterion
    obtain ⟨hstorable, hhome⟩ := hs.storable criterion hmem
    refine risks_bind (risks_commit ?_) fun _ _ _ => ends_ok _
    exact risks_updateCriterion signed.2 (hs.well.loadable criterion hmem) hstorable hhome document
  | setFlag signed lead_fits criterion_fits notes_fit =>
    apply risks_map
    rw [Administration.setFlag_eq]
    apply risks_commit
    exact Flagging.risks_setFlag hs.storable signed.2 signed.1 lead_fits criterion_fits notes_fit
  | history entry_fits =>
    apply risks_map
    apply risks_reading
    exact ends_bind.mpr ⟨Store.risks_require entry_fits, fun e _ => risks_of_exists (hs.history.exists_trail e)⟩
  | enroll fit timely =>
    apply risks_of_not_spoils hs fit
    intro b hb
    cases hb with
    | enroll entrance late => exact late (timely _ entrance)
  | enrollMany fit timely =>
    apply risks_of_not_spoils hs fit
    intro b hb
    cases hb with
    | enrollMany entrance late => exact late (timely _ entrance)
  | transfer fit timely =>
    apply risks_of_not_spoils hs fit
    intro b hb
    cases hb with
    | transfer entrance late => exact late (timely _ entrance)
  | advance fit timely judged =>
    apply risks_of_not_spoils hs fit
    intro b hb
    cases hb with
    | advance found opens late => exact late (timely _ found opens)
    | judgement found misjudged =>
      cases asks with
      | advance given names context =>
        exact not_misjudges hs (judged _ found) found context (isJson_context given) b misjudged
  | preview call entry_fits judged =>
    apply risks_map
    apply Advancement.risks_preview hs.well call entry_fits
    intro e b found misjudged
    cases asks with
    | preview given context =>
      exact not_misjudges hs (judged _ found) found context (isJson_context given) b misjudged
  | rests fit rests =>
    apply risks_of_not_spoils hs fit
    intro b hb
    rcases rests with rests | rests <;> cases hb <;> cases rests

end

end Command

end StageGate
