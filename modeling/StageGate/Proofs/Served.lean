import StageGate.Proofs.Facts
import StageGate.Proofs.Requests

/-!
This module contains what is always so of a service that is reached by requests, whoever holds locks in between. What
it stores can be stored again, shown and judged: criteria belong to stages that are there, the trail of an entry can
be read, and leads are documents.
-/

namespace StageGate

/-! ## Criteria -/

namespace Store

def HasStorable (s : Store) : Prop :=
  ∀ c ∈ s.criteria, c.IsStorable ∧ c.stage ∈ s.stages.map (·.id)

end Store

theorem closed_hasStorable (tables : List Table) : Closed Store.HasStorable tables where
  entries := fun _ _ _ h => h
  leads := fun _ _ _ h => h
  pipelines := fun _ _ _ h => h
  stages := by
    intro _ s stage h c hc
    refine ⟨(h c hc).1, ?_⟩
    rw [List.map_append]
    exact List.mem_append_left _ (h c hc).2
  added := by
    intro _ s stage c hnew h x hx
    rw [List.mem_append, List.mem_singleton] at hx
    rcases hx with hx | rfl
    . exact h x hx
    . refine ⟨hnew.storable, ?_⟩
      rw [hnew.stage]
      exact hnew.home
  updated := by
    intro _ s c new hc hupdate h x hx
    rw [List.mem_map] at hx
    obtain ⟨y, hy, rfl⟩ := hx
    split
    . refine ⟨hupdate.storable (h c hc).1, ?_⟩
      rw [hupdate.stage]
      exact (h c hc).2
    . exact h y hy
  flags := fun _ _ _ h => h

theorem Store.HasStorable.criteriaOf_eq_nil {s : Store} (h : s.HasStorable) {stage : Int}
    (hnew : stage ∉ s.stages.map (·.id)) : s.criteriaOf stage = [] := by
  rw [List.eq_nil_iff_forall_not_mem]
  intro c hc
  rw [Store.criteriaOf, Listing.mem_inOrder, List.mem_filter, decide_eq_true_eq] at hc
  apply hnew
  rw [← hc.2]
  exact (h c hc.1).2

/-! ## The trail -/

namespace Store

/-- The rows about entries can be shown. -/
def HasHistory (s : Store) : Prop :=
  ∀ r ∈ s.audit, r.subject = .entry → ∃ v, r.toValue = .ok v

namespace HasHistory

variable {s s' : Store}

theorem addAudit (h : s.HasHistory) {r : AuditRow} (hr : r.subject = .entry → ∃ v, r.toValue = .ok v) :
    (s.addAudit r).HasHistory := by
  intro x hx hsubject
  rcases List.mem_append.mp hx with hx | hx
  . exact h x hx hsubject
  . rw [List.mem_singleton] at hx
    subst hx
    exact hr hsubject

theorem step {f : Effect} (h : s.HasHistory) (hstep : Step f s s') : s'.HasHistory := by
  cases hstep with
  | aside _ _ audit =>
    intro r hr
    rw [audit] at hr
    exact h r hr
  | addStage => exact h
  | note _ _ _ subject => exact h.addAudit fun hsubject => absurd hsubject subject
  | refresh => exact h
  | enroll => exact addAudit h fun _ => ⟨_, rfl⟩
  | move => exact addAudit h fun _ => ⟨_, rfl⟩
  | archive => exact addAudit h fun _ => ⟨_, rfl⟩
  | transfer => exact addAudit h fun _ => ⟨_, rfl⟩

theorem steps {f : Effect} {n : Nat} (h : s.HasHistory) (hsteps : Steps f s n s') : s'.HasHistory := by
  induction hsteps with
  | refl => exact h
  | tail _ hstep ih => exact ih.step hstep

/-- Whether a row is filed under an entry itself or under the one it was transferred from, it is about an entry. -/
theorem of_mem_history {e : Entry} {r : AuditRow} (h : r ∈ s.history e) : r ∈ s.audit ∧ r.subject = .entry := by
  rw [Store.history, Listing.mem_inOrder, List.mem_append] at h
  rcases h with h | h
  . simp only [List.mem_filter, Bool.and_eq_true, decide_eq_true_eq] at h
    exact ⟨h.1, h.2.1⟩
  . split at h
    . cases h
    . split at h
      . cases h
      . simp only [List.mem_filter, Bool.and_eq_true, decide_eq_true_eq] at h
        exact ⟨h.1, h.2.1.1⟩

theorem exists_trail (h : s.HasHistory) (e : Entry) : ∃ rows, (s.history e).mapM AuditRow.toValue = .ok rows := by
  apply exists_mapM
  intro r hr
  obtain ⟨hmem, hsubject⟩ := of_mem_history hr
  exact h r hmem hsubject

end HasHistory

end Store

/-! ## Leads -/

theorem closed_leads (leads : List Lead) {tables : List Table} (h : .lead ∉ tables) : Closed (·.leads = leads) tables where
  entries := fun _ _ _ h => h
  leads := fun hlead => absurd hlead h
  pipelines := fun _ _ _ h => h
  stages := fun _ _ _ h => h
  added := fun _ _ _ _ _ h => h
  updated := fun _ _ _ _ _ _ h => h
  flags := fun _ _ _ h => h

theorem Command.Writes.leads_eq {env : Environment} {k : Command} {s s' : Store} (hw : k.Writes env s s')
    (h : .lead ∉ k.tables) : s'.leads = s.leads :=
  hw.preserves (closed_leads s.leads h) rfl

namespace Api

variable {c : Context} {route : Route} {k : Command}

theorem Context.haveJson_custom {fields custom : Fields} (given : c.data = .ok (.object fields))
    (customs : (Fields.getD fields "custom_fields" .null).orElse (.object []) = .object custom) :
    Value.haveJson custom := by
  have hdata : Value.haveJson fields := Request.isJson_of_data given
  have hempty : (Value.object []).isJson := rfl
  have hjson := Value.isJson_orElse (Rule.isJson_getD_null hdata "custom_fields") hempty
  rw [customs] at hjson
  exact hjson

theorem Context.Asks.hasDocumentLeads (h : c.Asks route k) {s s' : Store} (hs : s.HasDocumentLeads)
    (hw : k.Writes c.environment s s') : s'.HasDocumentLeads := by
  have hframe : .lead ∉ k.tables → s'.HasDocumentLeads := by
    intro hk
    unfold Store.HasDocumentLeads
    rw [hw.leads_eq hk]
    exact hs
  cases h with
  | createLead given names score customs =>
    have hdata : Value.haveJson _ := Request.isJson_of_data given
    cases hw with
    | createLead done =>
      obtain ⟨hcustom, hscore⟩ := Direct.of_addLead_document score done
      obtain ⟨kept, id, -, -, rfl⟩ := Direct.of_addLead done
      intro l hl
      rcases Row.of_mem_put hl with rfl | hl
      . refine ⟨.inr ⟨_, hcustom⟩, ?_, ?_⟩
        . rw [hcustom]
          exact c.haveJson_custom given customs
        . rw [hscore]
          exact Rule.isJson_getD_null hdata _
      . exact hs l hl
    | entries effect => exact absurd rfl effect
  | _ => exact hframe (by simp [Command.tables])

/-! ## Requests -/

theorem Context.Handles.after {s : Service} {result : Except Fault Response × Service}
    (h : c.Handles s route result) :
    result.2 = s ∨ ∃ k, c.Asks route k ∧ result.2 = (k.run c.environment s).2 := by
  cases h with
  | atOnce | unread | pipeline | lead => exact .inl rfl
  | done asks runs => exact .inr ⟨_, asks, by rw [runs]⟩
  | failed asks runs => exact .inr ⟨_, asks, by rw [runs]⟩

theorem settled_eq (op : Operation Response) (s : Service) : (settled op s).2 = (op s).2 := by
  unfold settled
  rcases op s with ⟨r | e, s'⟩
  . cases r <;> rfl
  . rfl

/-- A response without its document if there is no place for one. -/
def Request.shown (r : Request) (response : Response) : Response :=
  if r.method.toUpper = "HEAD" then { response with body := .null } else response

theorem Context.respond_eq (h : c.request.destination = .ok c.address) (s : Service) :
    respond c.environment c.levels c.request s = (.ok (c.request.shown (answer c s).1), (answer c s).2) := by
  unfold respond Request.shown
  rw [h]
  dsimp only
  split <;> rfl

theorem Context.after_answer (c : Context) (s : Service) : (answer c s).2 = s ∨ ∃ route k,
    c.Asks route k ∧ (answer c s).2 = (k.run c.environment s).2 := by
  rcases answer_eq c s with ⟨route, -, hanswer⟩ | hsame
  . rw [hanswer, settled_eq]
    exact (c.handles s route).after.imp_right fun ⟨k, hk⟩ => ⟨route, k, hk⟩
  . exact .inl hsame

/-- A request leaves the service as it was, or as the command leaves it that the request asks for. -/
theorem after_respond (environment : Environment) (levels : Nat) (r : Request) (s : Service) :
    (respond environment levels r s).2 = s ∨ ∃ (c : Context) (route : Route) (k : Command),
      c.environment = environment ∧ c.Asks route k ∧ (respond environment levels r s).2 = (k.run environment s).2 := by
  cases hdestination : r.destination with
  | error e =>
    unfold respond
    rw [hdestination]
    exact .inl rfl
  | ok address =>
    let c : Context := ⟨environment, levels, r, address⟩
    change (respond c.environment c.levels c.request s).2 = s ∨ _
    rw [c.respond_eq hdestination]
    exact (c.after_answer s).imp_right fun ⟨route, k, asks, hk⟩ => ⟨c, route, k, rfl, asks, hk⟩

end Api

namespace Service

/-- What a service has to be so that only what it is asked for can get in its way. -/
structure IsReady (s : Service) : Prop where
  well : s.IsWell
  storable : s.store.HasStorable
  history : s.store.HasHistory
  leads : s.store.HasDocumentLeads

namespace IsReady

variable {s : Service}

theorem locked (h : s.IsReady) (locks : Registry) : { s with locks }.IsReady :=
  ⟨h.well.locked locks, h.storable, h.history, h.leads⟩

theorem asked (h : s.IsReady) {c : Api.Context} {route : Api.Route} {k : Command} (asks : c.Asks route k) :
    IsReady (k.run c.environment s).2 := by
  have hservice := asks.isService
  have hsound := h.well.sound
  let t : Turn := ⟨c.environment, k, hservice⟩
  constructor
  . exact h.well.after t
  . exact preserved_of_after hsound t (closed_hasStorable _) h.storable
  . obtain ⟨n, hsteps, -⟩ := exists_steps hsound t
    exact h.history.steps hsteps
  . rcases writes_of_after hsound t with hsame | hwrites
    . change (s.after t).store.HasDocumentLeads
      rw [hsame]
      exact h.leads
    . exact asks.hasDocumentLeads h.leads hwrites

theorem responded (h : s.IsReady) (environment : Environment) (levels : Nat) (r : Api.Request) :
    IsReady (Api.respond environment levels r s).2 := by
  rcases Api.after_respond environment levels r s with hsame | ⟨c, route, k, rfl, asks, hafter⟩
  . rw [hsame]
    exact h
  . rw [hafter]
    exact h.asked asks

end IsReady

theorem isReady_empty : empty.IsReady where
  well := isWell_empty
  storable := fun _ hc => by cases hc
  history := fun _ hr => by cases hr
  leads := fun _ hl => by cases hl

/-- The services that requests lead to; what locks are held in between is up to others. -/
inductive Served (levels : Nat) : Service → Prop where
  | opened : Served levels empty
  | responded {s : Service} (served : Served levels s) (environment : Environment) (r : Api.Request) :
      Served levels (Api.respond environment levels r s).2
  | locked {s : Service} (served : Served levels s) (locks : Registry) : Served levels { s with locks }

theorem Served.isReady {levels : Nat} {s : Service} (h : Served levels s) : s.IsReady := by
  induction h with
  | opened => exact isReady_empty
  | responded _ environment r ih => exact ih.responded environment levels r
  | locked _ locks ih => exact ih.locked locks

end Service

end StageGate
