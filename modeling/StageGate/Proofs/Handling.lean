import StageGate.Api.Handler
import StageGate.Proofs.LeadRows

/-!
This module contains what becomes of requests at the addresses of the service. A request is answered at once, or
carries no document that can be looked into, or looks for a row by its id, or asks for a command and ends as the
command does.
-/

namespace StageGate

/-! ## Members that may be left out -/

namespace Value

def IsIntIfAny (v : Value) : Prop :=
  v = .null ∨ ∃ n, v = .int n

def IsTextIfAny (v : Value) : Prop :=
  v = .null ∨ ∃ s, v = .text s

def IsObjectIfAny (v : Value) : Prop :=
  v = .null ∨ ∃ fields, v = .object fields

theorem exists_orElse_object {v : Value} (h : v.IsObjectIfAny) : ∃ fields, v.orElse (.object []) = .object fields := by
  rcases h with rfl | ⟨fields, rfl⟩
  . exact ⟨[], rfl⟩
  . cases fields with
    | nil => exact ⟨[], rfl⟩
    | cons f fs => exact ⟨f :: fs, rfl⟩

end Value

namespace Api

open Operation

/-! ## What requests ask for -/

def Response.statuses : List Nat :=
  [200, 201, 308, 400, 404, 405, 409, 422, 503]

/-- An answer with one of the statuses that tell of no breakdown. -/
def Response.IsOrderly (r : Response) : Prop :=
  r.status ∈ statuses

namespace Context

variable (c : Context)

def caller : Caller :=
  ⟨.text c.request.actor, none, .null⟩

/-- The command that a request asks for at an address, with what its document says. -/
inductive Asks : Route → Command → Prop where
  | createPipeline {data : Value} (given : c.data = .ok data) :
      Asks .pipelines (.createPipeline (.text c.request.actor) data)
  | healthSummary {pipeline : Int} : Asks (.pipelineHealth pipeline) (.healthSummary c.caller (.int pipeline))
  | addStage {pipeline : Int} {data : Value} (given : c.data = .ok data) :
      Asks (.stages pipeline) (.addStage (.text c.request.actor) (.int pipeline) data)
  | addCriterion {stage : Int} {data : Value} (given : c.data = .ok data) :
      Asks (.criteria stage) (.addCriterion (.text c.request.actor) (.int stage) data)
  | updateCriterion {criterion : Int} {data : Value} (given : c.data = .ok data) :
      Asks (.criterion criterion) (.updateCriterion (.text c.request.actor) (.int criterion) data true)
  | createLead {fields custom : Fields} {name : String} (given : c.data = .ok (.object fields))
      (names : Configuration.nameOf? fields longestLeadName = some name)
      (score : (Fields.getD fields "lead_score" .null).IsIntIfAny)
      (customs : (Fields.getD fields "custom_fields" .null).orElse (.object []) = .object custom) :
      Asks .leads (.createLead (Lead.document name (Fields.getD fields "email" .null)
        (Fields.getD fields "phone" .null) (Fields.getD fields "company" .null) (Fields.getD fields "source" .null)
        (Fields.getD fields "lead_score" .null) custom))
  | checklist {lead criterion : Int} {fields : Fields} (given : c.data = .ok (.object fields)) :
      Asks (.checklist lead criterion) (.setFlag (.text c.request.actor) .done (.int lead) (.int criterion)
        (Fields.getD fields "done" .null).isTrue (Fields.getD fields "notes" .null))
  | approval {lead criterion : Int} {fields : Fields} (given : c.data = .ok (.object fields)) :
      Asks (.approval lead criterion) (.setFlag (.text c.request.actor) .approved (.int lead) (.int criterion)
        (Fields.getD fields "approved" .null).isTrue (Fields.getD fields "notes" .null))
  | enroll {pipeline lead : Int} {fields : Fields} (given : c.data = .ok (.object fields))
      (names : Fields.getD fields "lead_id" .null = .int lead) (note : (Fields.getD fields "note" .null).IsTextIfAny) :
      Asks (.enroll pipeline) (.enroll c.caller (.int lead) (.int pipeline) (Fields.getD fields "note" .null))
  | enrollMany {pipeline : Int} {leads : List Int} {fields : Fields} {skipExisting : Bool}
      (given : c.data = .ok (.object fields))
      (names : Fields.getD fields "lead_ids" .null = .list (leads.map .int)) (few : leads.length ≤ mostLeads)
      (note : (Fields.getD fields "note" .null).IsTextIfAny) :
      Asks (.enrollBulk pipeline) (.enrollMany c.caller (.list (leads.map .int)) (.int pipeline) skipExisting
        (Fields.getD fields "note" .null))
  | listActive {pipeline : Int} : Asks (.entries pipeline) (.listActive c.caller (.int pipeline))
  | getEntry {entry : Int} : Asks (.entry entry) (.getEntry c.caller (.int entry))
  | history {entry : Int} : Asks (.history entry) (.history (.int entry))
  | preview {entry : Int} {fields : Fields} (given : c.data = .ok (.object fields))
      (context : (Fields.getD fields "context" .null).IsObjectIfAny) :
      Asks (.preview entry) (.preview c.caller (.int entry) ⟨.null, Fields.getD fields "context" .null⟩)
  | advance {entry target : Int} {fields : Fields} (given : c.data = .ok (.object fields))
      (names : Fields.getD fields "target_stage_id" .null = .int target)
      (context : (Fields.getD fields "context" .null).IsObjectIfAny)
      (note : (Fields.getD fields "note" .null).IsTextIfAny) :
      Asks (.advance entry) (.advance c.caller (.int entry) (.int target) ⟨.null, Fields.getD fields "context" .null⟩
        (Fields.getD fields "note" .null))
  | archive {entry : Int} {fields : Fields} (given : c.data = .ok (.object fields))
      (reason : (Fields.getD fields "reason" .null).IsTextIfAny) :
      Asks (.archive entry) (.archive c.caller (.int entry) (Fields.getD fields "reason" .null))
  | transfer {entry pipeline : Int} {fields : Fields} (given : c.data = .ok (.object fields))
      (names : Fields.getD fields "target_pipeline_id" .null = .int pipeline)
      (reason : (Fields.getD fields "reason" .null).IsTextIfAny)
      (note : (Fields.getD fields "note" .null).IsTextIfAny) :
      Asks (.transfer entry) (.transfer c.caller (.int entry) (.int pipeline) (Fields.getD fields "reason" .null)
        (Fields.getD fields "note" .null))

theorem Asks.isService {c : Context} {route : Route} {k : Command} (h : c.Asks route k) : k.isService := by
  cases h <;> rfl

/-- How the handling of a request ends, and which service it leaves behind. -/
inductive Handles (s : Service) : Route → Except Fault Response × Service → Prop where
  | atOnce {route : Route} {r : Response} (orderly : r.IsOrderly) : Handles s route (.ok r, s)
  | unread {route : Route} {e : Fault} (reads : route.method ≠ .get)
      (unread : ∀ fields, c.data ≠ .ok (.object fields)) : Handles s route (.error e, s)
  | pipeline {id : Int} {e : Fault} (missed : s.store.pipeline (.int id) = .error e) :
      Handles s (.pipeline id) (.error e, s)
  | lead {id : Int} {e : Fault} (missed : s.store.lead (.int id) = .error e) : Handles s (.lead id) (.error e, s)
  | done {route : Route} {k : Command} {v : Value} {r : Response} {s' : Service} (asks : c.Asks route k)
      (runs : k.run c.environment s = (.ok v, s')) (orderly : r.IsOrderly) : Handles s route (.ok r, s')
  | failed {route : Route} {k : Command} {e : Fault} {s' : Service} (asks : c.Asks route k)
      (runs : k.run c.environment s = (.error e, s')) : Handles s route (.error e, s')

end Context

section

variable {c : Context} {s : Service} {route : Route} {k : Command} {α β : Type}

namespace Context.Handles

/-- The operation of the command comes last, and its answer is shown as it is. -/
theorem of_bind {op : Operation β} {f : β → Operation Response} {g : β → Operation Value} (asks : c.Asks route k)
    (hrun : k.run c.environment = op >>= g)
    (hf : ∀ b s', ∃ r v, f b s' = (.ok r, s') ∧ r.IsOrderly ∧ g b s' = (.ok v, s')) :
    c.Handles s route ((op >>= f) s) := by
  rcases hop : op s with ⟨x, s'⟩
  cases x with
  | ok b =>
    obtain ⟨r, v, hfb, horderly, hgb⟩ := hf b s'
    rw [bind_of_ok hop, hfb]
    refine .done asks (v := v) ?_ horderly
    rw [hrun, bind_of_ok hop, hgb]
  | error e =>
    rw [bind_of_error hop]
    refine .failed asks ?_
    rw [hrun, bind_of_error hop]

theorem of_reading_bind {g : Store → Except Fault β} {f : β → Operation Response}
    (hok : ∀ b, g s.store = .ok b → c.Handles s route (f b s))
    (herror : ∀ e, g s.store = .error e → c.Handles s route (.error e, s)) :
    c.Handles s route ((reading g >>= f) s) := by
  have hread := reading_eq g s
  cases hg : g s.store with
  | ok b =>
    rw [hg] at hread
    rw [bind_of_ok hread]
    exact hok b hg
  | error e =>
    rw [hg] at hread
    rw [bind_of_error hread]
    exact herror e hg

end Context.Handles

/-! ## Handlers -/

namespace Handler

theorem toOperation_lift_bind (op : Operation β) (f : β → Handler Response) :
    ((liftM op : Handler β) >>= f).toOperation = op >>= fun b => (f b).toOperation := by
  simp [toOperation, liftM, monadLift, MonadLift.monadLift]

/-- A handler of requests at an address ends as such requests do. -/
def Handles (c : Context) (s : Service) (route : Route) (h : Handler Response) : Prop :=
  c.Handles s route (h.toOperation s)

theorem handles_reject {code : Code} {message : String} (h : code.status ∈ Response.statuses) :
    Handles c s route (reject code message) :=
  .atOnce h

theorem handles_reject_bind {code : Code} {message : String} {f : β → Handler Response}
    (h : code.status ∈ Response.statuses) : Handles c s route (reject code message >>= f) :=
  .atOnce h

theorem handles_members_bind {f : Fields → Handler Response} (reads : route.method ≠ .get)
    (hf : ∀ fields, c.data = .ok (.object fields) → Handles c s route (f fields)) :
    Handles c s route (liftM (members c) >>= f) := by
  unfold Handles members compute
  rw [toOperation_lift_bind]
  apply Context.Handles.of_reading_bind
  . intro fields hfields
    obtain ⟨data, hdata, hmembers⟩ := bind_eq_ok.mp hfields
    cases data with
    | object =>
      cases hmembers
      exact hf _ hdata
    | _ => cases hmembers
  . intro e he
    apply Context.Handles.unread reads
    intro fields hdata
    rw [hdata] at he
    cases he

section

variable {data : Fields} {key : String} {f : Value → Handler Response}

theorem handles_integerOrNull_bind (hf : (Fields.getD data key .null).IsIntIfAny →
    Handles c s route (f (Fields.getD data key .null))) : Handles c s route (integerOrNull data key >>= f) := by
  unfold integerOrNull
  split
  . next h =>
    rw [h] at hf
    rw [pure_bind]
    exact hf (.inl rfl)
  . next n h =>
    rw [h] at hf
    rw [pure_bind]
    exact hf (.inr ⟨n, rfl⟩)
  . exact handles_reject_bind (by decide)

theorem handles_integer_bind (hf : ∀ n, Fields.getD data key .null = .int n → Handles c s route (f (.int n))) :
    Handles c s route (integer data key >>= f) := by
  unfold integer
  rw [bind_assoc]
  apply handles_integerOrNull_bind
  rintro (h | ⟨n, h⟩)
  . rw [h]
    exact handles_reject_bind (by decide)
  . rw [h, pure_bind]
    exact hf n h

theorem handles_objectOrNull_bind (hf : (Fields.getD data key .null).IsObjectIfAny →
    Handles c s route (f (Fields.getD data key .null))) : Handles c s route (objectOrNull data key >>= f) := by
  unfold objectOrNull
  split
  . next h =>
    rw [h] at hf
    rw [pure_bind]
    exact hf (.inl rfl)
  . next fields h =>
    rw [h] at hf
    rw [pure_bind]
    exact hf (.inr ⟨fields, rfl⟩)
  . exact handles_reject_bind (by decide)

theorem handles_textOrNull_bind (hf : (Fields.getD data key .null).IsTextIfAny →
    Handles c s route (f (Fields.getD data key .null))) : Handles c s route (textOrNull data key >>= f) := by
  unfold textOrNull
  split
  . next h =>
    rw [h] at hf
    rw [pure_bind]
    exact hf (.inl rfl)
  . next text h =>
    rw [h] at hf
    rw [pure_bind]
    exact hf (.inr ⟨text, rfl⟩)
  . exact handles_reject_bind (by decide)

end

/-- The operation of the command comes last. -/
theorem handles_lift_bind {op : Operation β} {f : β → Handler Response} {g : β → Value} (asks : c.Asks route k)
    (hrun : k.run c.environment = op >>= fun b => pure (g b))
    (hf : ∀ b, ∃ r : Response, f b = pure r ∧ r.IsOrderly) : Handles c s route (liftM op >>= f) := by
  unfold Handles
  rw [toOperation_lift_bind]
  apply Context.Handles.of_bind asks hrun
  intro b s'
  obtain ⟨r, hr, horderly⟩ := hf b
  refine ⟨r, g b, ?_, horderly, rfl⟩
  rw [hr]
  rfl

end Handler

open Handler

theorem Response.isOrderly_ok (body : Value) : (ok body).IsOrderly := by
  simp [IsOrderly, ok, statuses]

theorem Response.isOrderly_created (body : Value) : (created body).IsOrderly := by
  simp [IsOrderly, created, statuses]

theorem Context.Handles.of_compute_data {f : Value → Operation Response} (reads : route.method ≠ .get)
    (hf : ∀ data, c.data = .ok data → c.Handles s route (f data s)) :
    c.Handles s route ((compute c.data >>= f) s) := by
  apply of_reading_bind hf
  intro e he
  apply Context.Handles.unread reads
  intro fields hdata
  rw [hdata] at he
  cases he

theorem Context.handles_createPipeline : c.Handles s .pipelines (createPipeline c s) := by
  unfold createPipeline
  apply Context.Handles.of_compute_data (by simp [Route.method])
  intro data hdata
  exact .of_bind (.createPipeline hdata) rfl fun p s' =>
    ⟨_, s'.store.pipelineValue p, rfl, Response.isOrderly_created _, rfl⟩

theorem Context.handles_addStage {pipeline : Int} : c.Handles s (.stages pipeline) (addStage c pipeline s) := by
  unfold addStage
  apply Context.Handles.of_compute_data (by simp [Route.method])
  intro data hdata
  exact .of_bind (.addStage hdata) rfl fun stage s' =>
    ⟨_, s'.store.stageValue stage, rfl, Response.isOrderly_created _, rfl⟩

theorem Context.handles_addCriterion {stage : Int} : c.Handles s (.criteria stage) (addCriterion c stage s) := by
  unfold addCriterion
  apply Context.Handles.of_compute_data (by simp [Route.method])
  intro data hdata
  exact .of_bind (.addCriterion hdata) rfl fun criterion _ =>
    ⟨_, criterion.toValue, rfl, Response.isOrderly_created _, rfl⟩

theorem Context.handles_updateCriterion {criterion : Int} :
    c.Handles s (.criterion criterion) (updateCriterion c criterion s) := by
  unfold updateCriterion
  apply Context.Handles.of_compute_data (by simp [Route.method])
  intro data hdata
  exact .of_bind (.updateCriterion hdata) rfl fun updated _ =>
    ⟨_, updated.toValue, rfl, Response.isOrderly_ok _, rfl⟩

theorem Context.handles_showPipeline {id : Int} : c.Handles s (.pipeline id) (showPipeline id s) := by
  unfold showPipeline
  apply Context.Handles.of_reading_bind
  . exact fun p _ => .atOnce (Response.isOrderly_ok _)
  . exact fun e he => .pipeline he

theorem Context.handles_showLead {id : Int} : c.Handles s (.lead id) (showLead id s) := by
  unfold showLead
  apply Context.Handles.of_reading_bind
  . exact fun l _ => .atOnce (Response.isOrderly_ok _)
  . exact fun e he => .lead he

theorem Context.handles_showHealth {pipeline : Int} :
    c.Handles s (.pipelineHealth pipeline) (showHealth c pipeline s) :=
  .of_bind .healthSummary rfl fun summary _ => ⟨_, summary.toValue, rfl, Response.isOrderly_ok _, rfl⟩

theorem Context.handles_showEntry {entry : Int} : c.Handles s (.entry entry) (showEntry c entry s) :=
  .of_bind .getEntry rfl fun view _ => ⟨_, view.toValue, rfl, Response.isOrderly_ok _, rfl⟩

theorem Context.handles_showHistory {entry : Int} : c.Handles s (.history entry) (showHistory entry s) :=
  .of_bind .history rfl fun rows _ => ⟨_, .list rows, rfl, Response.isOrderly_ok _, rfl⟩

theorem Context.handles_listEntries {pipeline : Int} : c.Handles s (.entries pipeline) (listEntries c pipeline s) := by
  -- The operation checks the id where the command looks the row up, but both of them answer for the same ids.
  have hrun : (Command.listActive c.caller (.int pipeline)).run c.environment = (reading fun s => do
      Column.checkInt pipeline
      (s.activeEntries pipeline).mapM (s.view c.call.window c.call.now)) >>=
      fun views => pure (.list (views.map EntryView.toValue)) := by
    have hviews : Command.activeViews c.call (.int pipeline) = (fun s => do
        Column.checkInt pipeline
        (s.activeEntries pipeline).mapM (s.view c.call.window c.call.now)) := by
      funext s
      unfold Command.activeViews
      cases hid : Column.checkInt pipeline with
      | ok _ =>
        rw [Store.rowId?_int hid]
        rfl
      | error e =>
        have hnone : Store.rowId? (.int pipeline) = .error e := by
          simp [Store.rowId?, Column.number, hid, bind, Except.bind]
        rw [hnone]
        rfl
    rw [← hviews]
    rfl
  unfold listEntries
  exact .of_bind .listActive hrun fun views _ => ⟨_, .list (views.map EntryView.toValue), rfl, Response.isOrderly_ok _, rfl⟩

theorem Context.handles_setFlag {flag : Flagging.Flag} {lead criterion : Int} (reads : route.method ≠ .get)
    (asks : ∀ fields, c.data = .ok (.object fields) → c.Asks route (.setFlag (.text c.request.actor) flag
      (.int lead) (.int criterion) (Fields.getD fields flag.name .null).isTrue (Fields.getD fields "notes" .null))) :
    c.Handles s route (setFlag c flag lead criterion s) := by
  unfold setFlag
  apply Context.Handles.of_compute_data reads
  intro data hdata
  by_cases hobject : ∃ fields, data = .object fields
  . obtain ⟨fields, rfl⟩ := hobject
    apply Context.Handles.of_reading_bind
    . intro isMentioned _
      split
      . apply Context.Handles.of_reading_bind
        . rintro _ ⟨⟩
          exact .of_bind (asks fields hdata) rfl fun row _ => ⟨_, row.toValue, rfl, Response.isOrderly_ok _, rfl⟩
        . rintro _ ⟨⟩
      . exact .atOnce (by simp [Response.IsOrderly, Response.error, Response.statuses, Code.status])
    . intro e he
      cases he
  . have hunread : ∀ fields, c.data ≠ .ok (.object fields) := by
      intro fields h
      rw [hdata, Except.ok.injEq] at h
      exact hobject ⟨fields, h⟩
    apply Context.Handles.of_reading_bind
    . intro isMentioned _
      split
      . apply Context.Handles.of_reading_bind
        . intro fields hfields
          cases data with
          | object => exact absurd ⟨_, rfl⟩ hobject
          | _ => cases hfields
        . exact fun e _ => .unread reads hunread
      . exact .atOnce (by simp [Response.IsOrderly, Response.error, Response.statuses, Code.status])
    . exact fun e _ => .unread reads hunread

theorem exists_asMembers {v : Value} (h : v.IsObjectIfAny) : ∃ members, v.asMembers = .ok members := by
  unfold Value.asMembers
  rcases h with rfl | ⟨fields, rfl⟩
  . exact ⟨[], rfl⟩
  . split <;> exact ⟨_, rfl⟩

theorem exists_leadValue {l : Lead} (h : l.custom.IsObjectIfAny) : ∃ v, Command.leadValue l = .ok v := by
  obtain ⟨members, hmembers⟩ := exists_asMembers h
  obtain ⟨snapshot, hshown⟩ : ∃ snapshot, l.shownSnapshot = .ok snapshot := by
    unfold Lead.shownSnapshot Lead.snapshotOf
    rw [hmembers]
    exact ⟨_, rfl⟩
  refine ⟨.object [("id", .int l.id), ("snapshot", .object snapshot)], ?_⟩
  unfold Command.leadValue
  rw [hshown]
  rfl

theorem handles_createLead : Handler.Handles c s .leads (createLead c) := by
  unfold createLead
  apply handles_members_bind (by simp [Route.method])
  intro fields hdata
  split
  swap
  . exact handles_reject (by decide)
  next name hname =>
  apply handles_objectOrNull_bind
  intro hcustom
  apply handles_integerOrNull_bind
  intro hscore
  obtain ⟨custom, hcustom⟩ := Value.exists_orElse_object hcustom
  have asks := Context.Asks.createLead hdata hname hscore hcustom
  dsimp only
  rw [hcustom]
  unfold Handler.Handles
  rw [toOperation_lift_bind]
  change c.Handles s .leads ((Administration.createLead c.environment.now (Lead.document name _ _ _ _ _ custom) >>= _) s)
  unfold Administration.createLead
  generalize hvalues : Lead.document name _ _ _ _ _ custom = values at asks ⊢
  have hcommit := commit_eq (Direct.addLead c.environment.now values) s
  cases hadd : Direct.addLead c.environment.now values s.store with
  | error e =>
    rw [hadd] at hcommit
    rw [bind_of_error hcommit]
    refine .failed asks ?_
    simp only [Command.run, Command.runIn, commit_eq]
    rw [Transaction.bind_of_error hadd]
  | ok r =>
    obtain ⟨l, store⟩ := r
    rw [hadd] at hcommit
    rw [bind_of_ok hcommit]
    have hcustom : l.custom.IsObjectIfAny := by
      rw [← hvalues] at hadd
      exact .inr ⟨custom, (Direct.of_addLead_document hscore hadd).1⟩
    obtain ⟨v, hv⟩ := exists_leadValue hcustom
    refine .done asks (v := v) ?_ (Response.isOrderly_created l.toValue)
    simp only [Command.run, Command.runIn, commit_eq]
    rw [Transaction.bind_of_ok hadd, Transaction.reading_eq, hv]
    rfl

theorem handles_enroll {pipeline : Int} : Handler.Handles c s (.enroll pipeline) (enroll c pipeline) := by
  unfold enroll
  apply handles_members_bind (by simp [Route.method])
  intro fields hdata
  apply handles_integer_bind
  intro lead hlead
  apply handles_textOrNull_bind
  intro hnote
  exact handles_lift_bind (.enroll hdata hlead hnote) rfl fun view => ⟨_, rfl, Response.isOrderly_created _⟩

theorem exists_of_asInt? {items : List Value} (h : ∀ v ∈ items, v.asInt?.isSome) :
    ∃ ids : List Int, items = ids.map .int := by
  induction items with
  | nil => exact ⟨[], rfl⟩
  | cons v items ih =>
    rw [List.forall_mem_cons] at h
    obtain ⟨ids, rfl⟩ := ih h.2
    cases v with
    | int n => exact ⟨n :: ids, rfl⟩
    | _ => cases h.1

theorem exists_of_integers? {v : Value} {items : List Value} (h : integers? v = some items) :
    ∃ ids : List Int, items = ids.map .int ∧ v = .list (ids.map .int) := by
  cases v with
  | list vs =>
    simp only [integers?] at h
    split at h
    . next hall =>
      cases h
      obtain ⟨ids, rfl⟩ := exists_of_asInt? (List.all_eq_true.mp hall)
      exact ⟨ids, rfl, rfl⟩
    . cases h
  | _ => cases h

theorem handles_enrollBulk {pipeline : Int} : Handler.Handles c s (.enrollBulk pipeline) (enrollBulk c pipeline) := by
  unfold enrollBulk
  apply handles_members_bind (by simp [Route.method])
  intro fields hdata
  dsimp only
  split
  . exact handles_reject_bind (by decide)
  split
  . next leads hleads =>
    split
    . exact handles_reject_bind (by decide)
    . next hfew =>
      split
      . apply handles_textOrNull_bind
        intro hnote
        obtain ⟨ids, rfl, hids⟩ := exists_of_integers? hleads
        have hfew : ids.length ≤ mostLeads := by simpa using hfew
        apply handles_lift_bind (.enrollMany hdata hids hfew hnote) rfl
        intro bulk
        refine ⟨_, rfl, ?_⟩
        unfold Response.IsOrderly
        dsimp only
        split <;> simp [Response.statuses]
      . exact handles_reject (by decide)
  . exact handles_reject (by decide)

theorem handles_preview {entry : Int} : Handler.Handles c s (.preview entry) (preview c entry) := by
  unfold preview
  apply handles_members_bind (by simp [Route.method])
  intro fields hdata
  apply handles_objectOrNull_bind
  intro hcontext
  exact handles_lift_bind (.preview hdata hcontext) rfl fun verdict => ⟨_, rfl, Response.isOrderly_ok _⟩

theorem handles_advance {entry : Int} : Handler.Handles c s (.advance entry) (advance c entry) := by
  unfold advance
  apply handles_members_bind (by simp [Route.method])
  intro fields hdata
  apply handles_integer_bind
  intro target htarget
  apply handles_objectOrNull_bind
  intro hcontext
  apply handles_textOrNull_bind
  intro hnote
  apply handles_lift_bind (.advance hdata htarget hcontext hnote) rfl
  intro move
  split
  . exact ⟨_, rfl, Response.isOrderly_ok _⟩
  . refine ⟨_, rfl, ?_⟩
    simp [Response.IsOrderly, Response.error, Response.statuses, Code.status]

theorem handles_archive {entry : Int} : Handler.Handles c s (.archive entry) (archive c entry) := by
  unfold archive
  apply handles_members_bind (by simp [Route.method])
  intro fields hdata
  apply handles_textOrNull_bind
  intro hreason
  exact handles_lift_bind (.archive hdata hreason) rfl fun view => ⟨_, rfl, Response.isOrderly_ok _⟩

theorem handles_transfer {entry : Int} : Handler.Handles c s (.transfer entry) (transfer c entry) := by
  unfold transfer
  apply handles_members_bind (by simp [Route.method])
  intro fields hdata
  apply handles_integer_bind
  intro pipeline hpipeline
  apply handles_textOrNull_bind
  intro hreason
  apply handles_textOrNull_bind
  intro hnote
  exact handles_lift_bind (.transfer hdata hpipeline hreason hnote) rfl fun t =>
    ⟨_, rfl, Response.isOrderly_created _⟩

theorem Context.handles (c : Context) (s : Service) (route : Route) : c.Handles s route (handle c route s) := by
  cases route with
  | ready => exact .atOnce (Response.isOrderly_ok _)
  | live => exact .atOnce (Response.isOrderly_ok _)
  | pipelines => exact c.handles_createPipeline
  | pipeline id => exact c.handles_showPipeline
  | pipelineHealth id => exact c.handles_showHealth
  | stages pipeline => exact c.handles_addStage
  | criteria stage => exact c.handles_addCriterion
  | criterion id => exact c.handles_updateCriterion
  | leads => exact handles_createLead
  | lead id => exact c.handles_showLead
  | checklist lead criterion => exact c.handles_setFlag (by simp [Route.method]) fun _ => .checklist
  | approval lead criterion => exact c.handles_setFlag (by simp [Route.method]) fun _ => .approval
  | enroll pipeline => exact handles_enroll
  | enrollBulk pipeline => exact handles_enrollBulk
  | entries pipeline => exact c.handles_listEntries
  | entry id => exact c.handles_showEntry
  | history entry => exact c.handles_showHistory
  | preview entry => exact handles_preview
  | advance entry => exact handles_advance
  | archive entry => exact handles_archive
  | transfer entry => exact handles_transfer
  | file => exact .atOnce (by simp [Response.IsOrderly, Response.nowhere, Response.statuses])

end

end Api

end StageGate
