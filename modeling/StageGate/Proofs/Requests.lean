import StageGate.Api.Handler
import StageGate.Proofs.Sessions

/-!
This module contains that requests which are answered with an error leave the tables as they were. The members of
a document are checked before anything is changed, and the operation, which comes last, changes nothing when it
fails.
-/

namespace StageGate.Api

open Operation

/-- An answer that leaves the store `base` behind if it tells of an error. -/
def Response.Spares (base : Store) (r : Response) (s' : Service) : Prop :=
  400 ≤ r.status → s'.store = base

theorem Response.spares_of_lt {base : Store} {r : Response} {s' : Service} (h : r.status < 400) :
    r.Spares base s' := by
  intro hstatus
  omega

/-! ## Handlers -/

namespace Handler

section

variable {α β : Type} {s : Service} {base : Store} {post : α → Service → Prop}

/-- A handler that goes on as `post` says, or ends in an answer or a fault and leaves the store `base` behind. -/
def Spares (h : Handler α) (s : Service) (base : Store) (post : α → Service → Prop) : Prop :=
  Operation.Spares h.run s base fun r s' =>
    match r with
    | .ok a => post a s'
    | .error _ => s'.store = base

theorem Spares.mono {h : Handler α} {post' : α → Service → Prop} (hh : h.Spares s base post)
    (himp : ∀ a s', post a s' → post' a s') : h.Spares s base post' := by
  apply Operation.Spares.mono hh
  intro r s' hr
  cases r with
  | ok a => exact himp a s' hr
  | error r => exact hr

@[simp]
theorem spares_pure (a : α) : Spares (pure a) s base post ↔ post a s :=
  Iff.rfl

@[simp]
theorem spares_reject {code : Code} {message : String} :
    Spares (reject code message : Handler α) s base post ↔ s.store = base :=
  Iff.rfl

theorem spares_reject_bind {code : Code} {message : String} {f : β → Handler α} :
    Spares (reject code message >>= f) s base post ↔ s.store = base :=
  Iff.rfl

theorem spares_bind {h : Handler β} {f : β → Handler α} :
    Spares (h >>= f) s base post ↔ Spares h s base fun b s' => Spares (f b) s' base post := by
  change Operation.Spares (h.run >>= ExceptT.bindCont f) s base _ ↔ _
  rw [Operation.spares_bind]
  constructor
  . intro hh
    apply Operation.Spares.mono hh
    intro r s' hr
    cases r <;> exact hr
  . intro hh
    apply Operation.Spares.mono hh
    intro r s' hr
    cases r <;> exact hr

theorem Spares.bind {h : Handler β} {f : β → Handler α} {mid : β → Service → Prop} (hh : h.Spares s base mid)
    (hf : ∀ b s', mid b s' → (f b).Spares s' base post) : (h >>= f).Spares s base post := by
  rw [spares_bind]
  exact hh.mono hf

theorem spares_lift {op : Operation α} : Spares (liftM op) s base post ↔ op.Spares s base post := by
  change Operation.Spares (Except.ok <$> op) s base _ ↔ _
  rw [Operation.spares_map]

theorem spares_toOperation {h : Handler Response} (hh : h.Spares s base (Response.Spares base)) :
    h.toOperation.Spares s base (Response.Spares base) := by
  unfold toOperation
  apply Operation.Spares.bind hh
  intro r s' hr
  cases r with
  | ok r => exact hr
  | error r => exact fun _ => hr

/-- A handler that changes nothing. -/
def Keeps (h : Handler α) : Prop :=
  ∀ s, h.Spares s s.store fun _ s' => s' = s

theorem Keeps.bind {h : Handler β} {f : β → Handler α} (hh : h.Keeps) (hs : s.store = base)
    (hf : ∀ b, (f b).Spares s base post) : (h >>= f).Spares s base post := by
  subst hs
  apply (hh s).bind
  rintro b s' rfl
  exact hf b

theorem keeps_pure (a : α) : Keeps (pure a) :=
  fun _ => rfl

theorem keeps_reject {code : Code} {message : String} : Keeps (reject code message : Handler α) :=
  fun _ => rfl

theorem keeps_members (c : Context) : Keeps (liftM (members c)) := by
  intro s
  rw [spares_lift]
  unfold members compute
  exact spares_reading rfl fun _ _ => rfl

theorem keeps_integerOrNull (data : Fields) (key : String) : (integerOrNull data key).Keeps := by
  unfold integerOrNull
  split
  . exact keeps_pure _
  . exact keeps_pure _
  . exact keeps_reject

theorem keeps_integer (data : Fields) (key : String) : (integer data key).Keeps := by
  intro s
  unfold integer
  apply (keeps_integerOrNull data key).bind rfl
  intro v
  split
  . exact keeps_reject s
  . exact keeps_pure _ s

theorem keeps_objectOrNull (data : Fields) (key : String) : (objectOrNull data key).Keeps := by
  unfold objectOrNull
  split
  . exact keeps_pure _
  . exact keeps_pure _
  . exact keeps_reject

theorem keeps_textOrNull (data : Fields) (key : String) : (textOrNull data key).Keeps := by
  unfold textOrNull
  split
  . exact keeps_pure _
  . exact keeps_pure _
  . exact keeps_reject

/-- The operation comes last, and its answer tells of no error. -/
theorem spares_lift_answer {op : Operation β} {f : β → Response} (h : op.Spares s base fun _ _ => True)
    (hf : ∀ b, (f b).status < 400) :
    Spares (liftM op >>= fun b => (pure (f b) : Handler Response)) s base (Response.Spares base) := by
  rw [spares_bind, spares_lift]
  apply h.mono
  intro b s' _
  exact Response.spares_of_lt (hf b)

end

end Handler

open Handler

theorem spares_compute_bind {α β : Type} {s : Service} {base : Store} {post : α → Service → Prop}
    {x : Except Fault β} {f : β → Operation α} (hs : s.store = base) (hf : ∀ b, (f b).Spares s base post) :
    (compute x >>= f).Spares s base post :=
  spares_reading_bind hs fun b _ => hf b

theorem spares_answer {α : Type} {s : Service} {base : Store} {op : Operation α} {f : α → Response}
    (h : op.Spares s base fun _ _ => True) (hf : ∀ a, (f a).status < 400) :
    (op >>= fun a => (pure (f a) : Operation Response)).Spares s base (Response.Spares base) := by
  apply h.bind
  intro a s' _
  exact Response.spares_of_lt (hf a)

theorem status_ok (body : Value) : (Response.ok body).status < 400 := by
  simp [Response.ok]

theorem status_created (body : Value) : (Response.created body).status < 400 := by
  simp [Response.created]

/-! ## What is answered -/

section

variable {c : Context} {s : Service}

theorem spares_createPipeline : (createPipeline c).Spares s s.store (Response.Spares s.store) := by
  unfold createPipeline
  apply spares_compute_bind rfl
  intro data
  apply Operation.Spares.bind spares_settle_self
  intro p s' _
  exact Response.spares_of_lt (status_created _)

theorem spares_addStage {pipeline : Int} : (addStage c pipeline).Spares s s.store (Response.Spares s.store) := by
  unfold addStage
  apply spares_compute_bind rfl
  intro data
  apply Administration.spares_addStage.bind
  intro stage s' _
  exact Response.spares_of_lt (status_created _)

theorem spares_addCriterion {stage : Int} : (addCriterion c stage).Spares s s.store (Response.Spares s.store) := by
  unfold addCriterion
  apply spares_compute_bind rfl
  intro data
  exact spares_answer Administration.spares_addCriterion fun _ => status_created _

theorem spares_updateCriterion {criterion : Int} :
    (updateCriterion c criterion).Spares s s.store (Response.Spares s.store) := by
  unfold updateCriterion
  apply spares_compute_bind rfl
  intro data
  exact spares_answer Administration.spares_updateCriterion fun _ => status_ok _

theorem spares_createLead : (createLead c).Spares s s.store (Response.Spares s.store) := by
  unfold createLead
  apply (keeps_members _).bind rfl
  intro data
  split
  . apply (keeps_objectOrNull _ _).bind rfl
    intro custom
    apply (keeps_integerOrNull _ _).bind rfl
    intro score
    exact spares_lift_answer spares_commit_self fun _ => status_created _
  . exact spares_reject.mpr rfl

theorem spares_setFlag {flag : Flagging.Flag} {lead criterion : Int} :
    (setFlag c flag lead criterion).Spares s s.store (Response.Spares s.store) := by
  unfold setFlag
  apply spares_compute_bind rfl
  intro data
  apply spares_compute_bind rfl
  intro isMentioned
  split
  . apply spares_compute_bind rfl
    intro fields
    exact spares_answer spares_settle_self fun _ => status_ok _
  . exact fun _ => rfl

theorem spares_enroll {pipeline : Int} (hs : s.store.IsKeyed) :
    (enroll c pipeline).Spares s s.store (Response.Spares s.store) := by
  unfold enroll
  apply (keeps_members _).bind rfl
  intro data
  apply (keeps_integer _ _).bind rfl
  intro lead
  apply (keeps_textOrNull _ _).bind rfl
  intro note
  exact spares_lift_answer (Enrollment.spares_enroll hs) fun _ => status_created _

theorem spares_enrollBulk {pipeline : Int} (hs : s.store.IsKeyed) :
    (enrollBulk c pipeline).Spares s s.store (Response.Spares s.store) := by
  unfold enrollBulk
  apply (keeps_members _).bind rfl
  intro data
  dsimp only
  split
  . exact spares_reject_bind.mpr rfl
  split
  . split
    . exact spares_reject_bind.mpr rfl
    split
    . apply (keeps_textOrNull _ _).bind rfl
      intro note
      apply spares_lift_answer (Enrollment.spares_enrollMany hs)
      intro bulk
      dsimp only
      split <;> omega
    . exact spares_reject.mpr rfl
  . exact spares_reject.mpr rfl

theorem spares_advance {entry : Int} : (advance c entry).Spares s s.store (Response.Spares s.store) := by
  unfold advance
  apply (keeps_members _).bind rfl
  intro data
  apply (keeps_integer _ _).bind rfl
  intro target
  apply (keeps_objectOrNull _ _).bind rfl
  intro context
  apply (keeps_textOrNull _ _).bind rfl
  intro note
  apply Handler.Spares.bind (spares_lift.mpr Advancement.spares_advance)
  intro move s' hmove
  split
  . exact Response.spares_of_lt (status_ok _)
  . next hok => exact fun _ => hmove hok

theorem spares_transfer {entry : Int} (hs : s.store.IsKeyed) :
    (transfer c entry).Spares s s.store (Response.Spares s.store) := by
  unfold transfer
  apply (keeps_members _).bind rfl
  intro data
  apply (keeps_integer _ _).bind rfl
  intro pipeline
  apply (keeps_textOrNull _ _).bind rfl
  intro reason
  apply (keeps_textOrNull _ _).bind rfl
  intro note
  exact spares_lift_answer (Closing.spares_transfer hs) fun _ => status_created _

theorem spares_preview {entry : Int} : (preview c entry).Spares s s.store (Response.Spares s.store) := by
  unfold preview
  apply (keeps_members _).bind rfl
  intro data
  apply (keeps_objectOrNull _ _).bind rfl
  intro context
  exact spares_lift_answer (Advancement.leads_preview.spares.mono fun _ _ _ => trivial) fun _ => status_ok _

theorem spares_archive {entry : Int} : (archive c entry).Spares s s.store (Response.Spares s.store) := by
  unfold archive
  apply (keeps_members _).bind rfl
  intro data
  apply (keeps_textOrNull _ _).bind rfl
  intro reason
  exact spares_lift_answer (Closing.leads_archive.spares.mono fun _ _ _ => trivial) fun _ => status_ok _

theorem spares_shown {g : Store → Except Fault β} {f : β → Response} (hf : ∀ b, (f b).status < 400) :
    (reading g >>= fun b => (pure (f b) : Operation Response)).Spares s s.store (Response.Spares s.store) :=
  spares_answer (spares_reading rfl fun _ _ => trivial) hf

theorem spares_handle (hs : s.store.IsKeyed) {route : Route} (hroute : ∀ id, route ≠ .pipelineHealth id) :
    (handle c route).Spares s s.store (Response.Spares s.store) := by
  cases route with
  | ready => exact Response.spares_of_lt (status_ok _)
  | live => exact Response.spares_of_lt (status_ok _)
  | pipelines => exact spares_createPipeline
  | pipeline id => exact spares_reading_bind rfl fun p _ => Response.spares_of_lt (status_ok _)
  | pipelineHealth id => exact absurd rfl (hroute id)
  | stages pipeline => exact spares_addStage
  | criteria stage => exact spares_addCriterion
  | criterion id => exact spares_updateCriterion
  | leads => exact spares_toOperation spares_createLead
  | lead id => exact spares_shown fun _ => status_ok _
  | checklist lead criterion => exact spares_setFlag
  | approval lead criterion => exact spares_setFlag
  | enroll pipeline => exact spares_toOperation (spares_enroll hs)
  | enrollBulk pipeline => exact spares_toOperation (spares_enrollBulk hs)
  | entries pipeline => exact spares_shown fun _ => status_ok _
  | entry id => exact spares_shown fun _ => status_ok _
  | history entry => exact spares_shown fun _ => status_ok _
  | preview entry => exact spares_toOperation spares_preview
  | advance entry => exact spares_toOperation spares_advance
  | archive entry => exact spares_toOperation spares_archive
  | transfer entry => exact spares_toOperation (spares_transfer hs)
  | file => exact fun _ => rfl

theorem store_of_settled {op : Operation Response} (h : op.Spares s s.store (Response.Spares s.store))
    (hstatus : 400 ≤ (settled op s).1.status) : (settled op s).2.store = s.store := by
  unfold settled at *
  unfold Operation.Spares at h
  rcases hop : op s with ⟨r, s'⟩
  rw [hop] at h hstatus
  cases r with
  | ok r => exact h hstatus
  | error e => cases e <;> exact h

theorem store_of_showHealth {pipeline : Int} (hs : s.store.IsKeyed)
    (hstatus : 400 ≤ (settled (showHealth c pipeline) s).1.status) :
    (settled (showHealth c pipeline) s).2.store = s.store ∨ ∃ p e, s.store.pipeline (.int pipeline) = .ok p ∧
      HealthSummary.Halts p e s.store (settled (showHealth c pipeline) s).2.store := by
  unfold showHealth at *
  rcases hop : Administration.healthSummary c.environment.window (.int pipeline) c.environment.now s with ⟨r, s'⟩
  cases r with
  | ok summary =>
    rw [settled, bind_of_ok hop] at hstatus
    exact absurd (Nat.lt_of_lt_of_le (status_ok summary.toValue) hstatus) (Nat.lt_irrefl _)
  | error e =>
    have hstore := Administration.store_of_healthSummary hs hop
    rw [settled, bind_of_error hop]
    cases e with
    | refused r => exact hstore.imp_right fun ⟨p, hp, hhalts⟩ => ⟨p, _, hp, hhalts⟩
    | broken b => exact hstore.imp_right fun ⟨p, hp, hhalts⟩ => ⟨p, _, hp, hhalts⟩

end

/-- A request is handled at its address, or is answered without a look at the tables. -/
theorem answer_eq (c : Context) (s : Service) :
    (∃ route, Route.ofPath? c.address.plainPath = some route ∧ answer c s = settled (handle c route) s) ∨
      (answer c s).2 = s := by
  unfold answer
  dsimp only
  split
  . next route hroute =>
    split
    . split
      . exact .inr rfl
      split
      . exact .inr rfl
      . exact .inl ⟨route, hroute, rfl⟩
    . exact .inr rfl
  . split
    . exact .inr rfl
    . exact .inr rfl
  . exact .inr rfl

/-- What the summary of the health of a pipeline leaves behind when it is asked for and cannot be given. -/
def Request.Halts (r : Request) (s s' : Store) : Prop :=
  ∃ address id p e, r.destination = .ok address ∧ Route.ofPath? address.plainPath = some (.pipelineHealth id) ∧
    s.pipeline (.int id) = .ok p ∧ HealthSummary.Halts p e s s'

theorem store_of_answer {c : Context} {s : Service} (hs : s.store.IsKeyed)
    (hdestination : c.request.destination = .ok c.address) (hstatus : 400 ≤ (answer c s).1.status) :
    (answer c s).2.store = s.store ∨ c.request.Halts s.store (answer c s).2.store := by
  obtain ⟨route, hroute, hanswer⟩ | hnone := answer_eq c s
  . rw [hanswer] at hstatus ⊢
    by_cases hhealth : ∃ id, route = .pipelineHealth id
    . obtain ⟨id, rfl⟩ := hhealth
      refine (store_of_showHealth hs hstatus).imp_right ?_
      rintro ⟨p, e, hp, hhalts⟩
      exact ⟨c.address, id, p, e, hdestination, hroute, hp, hhalts⟩
    . rw [not_exists] at hhealth
      exact .inl (store_of_settled (spares_handle hs hhealth) hstatus)
  . exact .inl (congrArg Service.store hnone)

theorem store_of_respond {environment : Environment} {levels : Nat} {r : Request} {s : Service} {response : Response}
    (hs : s.store.IsKeyed) (h : (respond environment levels r s).1 = .ok response) (hstatus : 400 ≤ response.status) :
    (respond environment levels r s).2.store = s.store ∨
      r.Halts s.store (respond environment levels r s).2.store := by
  unfold respond at *
  cases hdestination : r.destination with
  | error e =>
    rw [hdestination] at h
    cases h
  | ok address =>
    rw [hdestination] at h
    have hanswer := store_of_answer (c := ⟨environment, levels, r, address⟩) hs hdestination
    dsimp only at h ⊢
    split
    . next hhead =>
      rw [if_pos hhead] at h
      cases h
      exact hanswer hstatus
    . next hhead =>
      rw [if_neg hhead] at h
      cases h
      exact hanswer hstatus

end StageGate.Api

namespace StageGate.Service

/--
What fails leaves all tables as they were: every command that ends in a fault, every move that is held up by
criteria, and every request that is answered with an error. Only a summary of the health of a pipeline has
refreshed what the entries remember before it may find that the orders of the stages cannot be compared. All of these
end the session they work in; what fails in a session that goes on is contained in it.
-/
theorem failures_leave_tables (s : Service) (hs : s.store.IsKeyed) (env : Environment) :
    (∀ (k : Command) (e : Fault), (k.run env s).1 = .error e → (k.run env s).2.store = s.store ∨
      ∃ caller pipeline p, k = .healthSummary caller pipeline ∧ s.store.pipeline pipeline = .ok p ∧
        HealthSummary.Halts p e s.store (k.run env s).2.store) ∧
      (∀ (c : Call) (entry target note : Value) (k : Advancement.Knowledge) (m : Advancement.Move),
        (Advancement.advance c entry target k note s).1 = .ok m → m.outcome = .criteriaNotMet →
          (Advancement.advance c entry target k note s).2.store = s.store) ∧
      (∀ (levels : Nat) (r : Api.Request) (response : Api.Response), (Api.respond env levels r s).1 = .ok response →
        400 ≤ response.status → (Api.respond env levels r s).2.store = s.store ∨
          r.Halts s.store (Api.respond env levels r s).2.store) ∧
      Session.Contains s.store := by
  refine ⟨?_, ?_, ?_, Session.contains hs⟩
  . intro k e he
    exact Command.store_of_run hs he
  . intro c entry target note k m hm hblocked
    apply Advancement.spares_advance.of_ok hm
    simp [Advancement.Move.ok, hblocked]
  . intro levels r response h hstatus
    exact Api.store_of_respond hs h hstatus

def misordered : Service :=
  -- A lead in the first of two stages, of which the second has been given an order that is no number.
  let env : Environment := ⟨⟨63908038800000000⟩, .int 1, .int 0⟩
  let stages : Value :=
    .list [.object [("name", .text "New"), ("sla_deadline_days", .int 3)], .object [("name", .text "Won")]]
  let turns := Turn.allIn env
    [.createLead [("name", .text "Ada")],
      .createPipeline (.text "system") (.object [("name", .text "Sales"), ("stages", stages)]),
      .enroll ⟨.text "system", none, .null⟩ (.int 1) (.int 1) .null] (by decide)
  ((Command.changeRow .stage (.int 2) [("order", .text "last")]).run env (reached turns)).2

def weekLater : Environment :=
  ⟨⟨63908730000000000⟩, .int 1, .int 0⟩

theorem failures_leave_tables_misordered :
    let enroll := Command.enroll ⟨.text "system", none, .null⟩ (.int 1) (.int 1) .null
    misordered.store.IsKeyed ∧ ¬(enroll.run weekLater misordered).1.isOk ∧
      (enroll.run weekLater misordered).2.store = misordered.store := by
  intro enroll
  have hkeyed : misordered.store.IsKeyed := ⟨by decide +kernel, by decide +kernel⟩
  have hfails : ¬(enroll.run weekLater misordered).1.isOk := by decide +kernel
  refine ⟨hkeyed, hfails, ?_⟩
  cases he : (enroll.run weekLater misordered).1 with
  | ok v =>
    rw [he] at hfails
    exact absurd rfl hfails
  | error e =>
    rcases (failures_leave_tables misordered hkeyed weekLater).1 enroll e he with h | ⟨_, _, _, hk, _⟩
    . exact h
    . exact absurd hk (by simp [enroll])

def offered : Store :=
  -- A lead, and a pipeline with a criterion in its first stage, where everything is due within a day.
  let env : Environment := ⟨⟨63908038800000000⟩, .int 1, .int 0⟩
  let criteria : Value := .list [.object [("kind", .text "checklist"), ("name", .text "Call")]]
  let stages : Value := .list
    [.object [("name", .text "New"), ("sla_deadline_days", .int 1), ("criteria", criteria)],
      .object [("name", .text "Won")]]
  (reached (Turn.allIn env
    [.createLead [("name", .text "Ada")],
      .createPipeline (.text "system") (.object [("name", .text "Sales"), ("stages", stages)])] (by decide))).store

/--
A summary that cannot be given has refreshed what an entry remembers. An update that fails in a session is saved with
the next pipeline that is created in it. An enrollment in the last hours of the calendar fails when it has been stored,
if the clock of the caller is ahead of universal time.
-/
theorem failures_leave_changes :
    let summary := Command.healthSummary ⟨.text "system", none, .null⟩ (.int 1)
    let request : Api.Request := ⟨"GET", "/api/v1/pipelines/1/health", none, none, none⟩
    let remembered (s : Service) := s.store.entries.map (·.healthCache)
    let named (s : Store) := s.criteria.map (·.name)
    let author : Configuration.Author := ⟨.text "system", weekLater.now⟩
    let late : ZonedCall := ⟨.text "system", ⟨⟨315537813000000000⟩, some 3600000000⟩, .int 1, .int 0⟩
    (remembered misordered = [some "green"] ∧ ¬(summary.run weekLater misordered).1.isOk ∧
      remembered (summary.run weekLater misordered).2 = [some "red"] ∧
      (Api.respond weekLater 1 request misordered).1.toOption.map (·.status) = some 500 ∧
      remembered (Api.respond weekLater 1 request misordered).2 = [some "red"]) ∧
    (named offered = ["Call"] ∧ ∃ c ∈ offered.criteria,
      let (updated, session) := (Session.opened offered).run (Configuration.draftUpdate author c
        (.object [("name", .text "X"), ("sort_order", .text "abc")]) false)
      let (created, session') := session.run (Configuration.draftPipeline author (.object [("name", .text "Next")]))
      ¬updated.isOk ∧ session.closed = offered ∧ created.isOk ∧ named session'.closed = ["X"]) ∧
    let (enrolled, s) := Enrollment.enroll late (.int 1) (.int 1) .null { empty with store := offered }
    ¬enrolled.isOk ∧ offered.entries = [] ∧ s.store.entries.map (·.id) = [1] := by
  intro summary request remembered named author late
  refine ⟨⟨?_, ?_, ?_, ?_, ?_⟩, ⟨?_, ?_⟩, ?_, ?_, ?_⟩ <;> decide +kernel

end StageGate.Service
