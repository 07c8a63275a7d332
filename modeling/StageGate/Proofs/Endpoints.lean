import StageGate.Proofs.Welcome

/-!
This module contains what the service answers. Whatever refuses a request has its own status, and a request that can
be read, and that asks for what fits, is never answered with a breakdown.
-/

namespace StageGate

namespace Api

open Operation

/-! ## Statuses -/

/-- What cannot be found, what cannot be used, what is in the way of something else, and what takes too long. -/
def Response.statusOf : Refusal → Nat
  | .notFound .. => 404
  | .invalid .. | .misconfigured .. => 422
  | .conflict .. | .alreadyEnrolled .. | .notActive .. | .invalidTarget .. | .capacityReached .. => 409
  | .timedOut .. => 503

@[simp]
theorem Response.status_ofRefusal (r : Refusal) : (ofRefusal r).status = statusOf r := by
  cases r <;> rfl

theorem Response.statusOf_mem (r : Refusal) : statusOf r ∈ statuses := by
  cases r <;> simp [statusOf, statuses]

@[simp]
theorem Request.status_shown (r : Request) (response : Response) : (r.shown response).status = response.status := by
  unfold Request.shown
  split <;> rfl

/-! ## Requests that can be answered -/

/-- The document of a request is an object if it is looked into, and what the request asks for is welcome. -/
structure Context.IsFit (c : Context) (s : Store) (route : Route) : Prop where
  document : route.method ≠ .get → ∃ fields, c.data = .ok (.object fields)
  shown : ∀ id, route = .pipeline id ∨ route = .lead id → Column.checkInt id = .ok ()
  welcome : ∀ k, c.Asks route k → k.IsWelcome c.environment s

section

variable {c : Context} {s : Service} {route : Route}

theorem Context.IsFit.risks (hs : s.IsReady) (h : c.IsFit s.store route) :
    (handle c route).Risks (fun _ => False) s := by
  have hhandles := c.handles s route
  unfold Operation.Risks
  generalize handle c route s = result at hhandles ⊢
  cases hhandles with
  | atOnce => exact ends_ok _
  | unread reads unread =>
    obtain ⟨fields, hdata⟩ := h.document reads
    exact absurd hdata (unread fields)
  | @pipeline id _ missed => exact ends_error.mpr (Store.risks_require (h.shown id (.inl rfl)) _ missed)
  | @lead id _ missed => exact ends_error.mpr (Store.risks_require (h.shown id (.inr rfl)) _ missed)
  | done => exact ends_ok _
  | failed asks runs =>
    have hrisks := (h.welcome _ asks).risks hs asks
    unfold Operation.Risks at hrisks
    rw [runs] at hrisks
    exact ends_error.mpr (hrisks _ rfl)

theorem Context.Handles.isOrderly {result : Except Fault Response × Service} (h : c.Handles s route result) {r : Response}
    (hr : result.1 = .ok r) : r.IsOrderly := by
  cases h with
  | atOnce orderly => cases hr; exact orderly
  | done _ _ orderly => cases hr; exact orderly
  | _ => cases hr

theorem settled_of_refused {op : Operation Response} {refusal : Refusal} (h : (op s).1 = .error (.refused refusal)) :
    (settled op s).1 = .ofRefusal refusal := by
  unfold settled
  rcases hop : op s with ⟨r, s'⟩
  rw [hop] at h
  cases h
  rfl

theorem isOrderly_settled (hs : s.IsReady) (h : c.IsFit s.store route) : (settled (handle c route) s).1.IsOrderly := by
  have hrisks := h.risks hs
  have hhandles := c.handles s route
  unfold Operation.Risks at hrisks
  unfold settled
  rcases hop : handle c route s with ⟨r, s'⟩
  rw [hop] at hrisks hhandles
  cases r with
  | ok r => exact hhandles.isOrderly rfl
  | error e =>
    cases e with
    | refused refusal =>
      unfold Response.IsOrderly
      rw [Response.status_ofRefusal]
      exact Response.statusOf_mem refusal
    | broken b => exact absurd (hrisks _ rfl) (Fault.within_broken.not.mpr not_false)

end

/-- The address of a request, and its method, lead to a route. -/
def Context.LeadsTo (c : Context) (route : Route) : Prop :=
  Route.ofPath? c.address.plainPath = some route ∧ method? c.request = some route.method

theorem answer_of_leadsTo {c : Context} {route : Route} (h : c.LeadsTo route)
    (short : ¬Route.isOverlong c.address.plainPath) (s : Service) : answer c s = settled (handle c route) s := by
  obtain ⟨hroute, hmethod⟩ := h
  have hasks : ¬c.request.method.toUpper = "OPTIONS" := by
    intro hasks
    simp [method?, hasks] at hmethod
  unfold answer
  dsimp only
  rw [hroute]
  dsimp only
  rw [if_pos (by simp [hmethod]), if_neg short, if_neg (by simpa using hasks)]

theorem isOrderly_answer {c : Context} {s : Service} (hs : s.IsReady) (short : ¬Route.isOverlong c.address.plainPath)
    (h : ∀ route, c.LeadsTo route → c.IsFit s.store route) : (answer c s).1.IsOrderly := by
  by_cases hleads : ∃ route, c.LeadsTo route
  . obtain ⟨route, hroute⟩ := hleads
    rw [answer_of_leadsTo hroute short]
    exact isOrderly_settled hs (h route hroute)
  . unfold answer
    dsimp only
    split
    . next route hroute =>
      rw [if_neg short]
      split
      . split
        . simp [Response.IsOrderly, Response.ok, Response.statuses]
        . next hmethod hasks =>
          have hmethod : method? c.request = some route.method := by simpa [hasks] using hmethod
          exact absurd ⟨route, hroute, hmethod⟩ hleads
      . simp [Response.IsOrderly, Response.wrongMethod, Response.statuses]
    . split <;> simp [Response.IsOrderly, Response.wrongMethod, Response.statuses]
    . simp [Response.IsOrderly, Response.nowhere, Response.statuses]

end Api

namespace Service

open Api

/--
A service that has been reached by requests answers every further one that it can be given, and that is fit: with a
status that tells of no breakdown, and if the request is refused with the status of the refusal.
-/
theorem Served.answers {c : Context} {s : Service} (hs : s.Served c.levels) (h : c.request.destination = .ok c.address)
    (short : ¬Route.isOverlong c.address.plainPath) (fit : ∀ route, c.LeadsTo route → c.IsFit s.store route) :
    ∃ response, (respond c.environment c.levels c.request s).1 = .ok response ∧
      response.status ∈ Response.statuses ∧ response.status ≠ Response.broken.status ∧
      ∀ route refusal, c.LeadsTo route → (handle c route s).1 = .error (.refused refusal) →
        response.status = Response.statusOf refusal := by
  have hbroken : Response.broken.status ∉ Response.statuses := by decide
  have horderly := isOrderly_answer hs.isReady short fit
  rw [c.respond_eq h]
  refine ⟨_, rfl, ?_, ?_, ?_⟩
  . rw [Request.status_shown]
    exact horderly
  . rw [Request.status_shown]
    intro hstatus
    rw [Response.IsOrderly, hstatus] at horderly
    exact hbroken horderly
  . intro route refusal hroute hrefused
    rw [Request.status_shown, answer_of_leadsTo hroute short, settled_of_refused hrefused, Response.status_ofRefusal]

def posted (address document : String) : Request :=
  ⟨"POST", address, some ⟨"application/json", document⟩, none, none⟩

/-- A pipeline of one stage, and no lead. -/
def vacant : Service :=
  let stages := "[\x7b\"name\": \"New\", \"sla_deadline_days\": 3\x7d]"
  (respond atWork 3 (posted "/api/v1/pipelines" ("\x7b\"name\": \"Sales\", \"stages\": " ++ stages ++ "\x7d")) empty).2

def stray : Request :=
  posted "/api/v1/pipelines/1/enroll" "\x7b\"lead_id\": 7\x7d"

def strayContext : Context :=
  ⟨atWork, 3, stray, ⟨"/api/v1/pipelines/1/enroll".toList, []⟩⟩

theorem leadsTo_stray {route : Route} (h : strayContext.LeadsTo route) : route = .enroll 1 := by
  have hroute : Route.ofPath? strayContext.address.plainPath = some (.enroll 1) := by decide +kernel
  exact Option.some.inj (h.1.symm.trans hroute)

theorem isTimelyAt_vacant : vacant.store.IsTimelyAt atWork.now 1 := by
  intro first hfirst
  have hdeadline : (vacant.store.stagesOf 1).head?.map (·.deadline) = some (.int 3) := by decide +kernel
  rw [hfirst, Option.map_some, Option.some.injEq] at hdeadline
  rw [hdeadline]
  exact ⟨⟨63908298000000000⟩, by decide +kernel⟩

theorem isFit_stray : strayContext.IsFit vacant.store (.enroll 1) := by
  have hdata : strayContext.data = .ok (.object [("lead_id", .int 7)]) := by decide +kernel
  constructor
  . exact fun _ => ⟨_, hdata⟩
  . rintro id (h | h) <;> cases h
  . intro k asks
    cases asks with
    | enroll given names note =>
      rw [hdata] at given
      cases given
      cases names
      have hactor : stray.actor = "system" := by decide +kernel
      rw [show strayContext.caller = ⟨.text stray.actor, none, .null⟩ from rfl, hactor]
      cases isFit_enrollment with
      | enroll call lead_fits pipeline_fits note_fits =>
        exact .enroll (.enroll call rfl pipeline_fits note_fits) isTimelyAt_vacant

theorem served_answers_stray :
    ∃ response, (respond atWork 3 stray vacant).1 = .ok response ∧ response.status ∈ Response.statuses ∧
      response.status = 404 := by
  have hserved : vacant.Served 3 := .responded .opened _ _
  have hdestination : stray.destination = .ok strayContext.address := by decide +kernel
  have hleads : strayContext.LeadsTo (.enroll 1) := ⟨by decide +kernel, by decide +kernel⟩
  have hrefused : (handle strayContext (.enroll 1) vacant).1 = .error (.refused (.notFound "Lead" (.int 7))) := by
    decide +kernel
  have hshort : ¬Route.isOverlong strayContext.address.plainPath := by decide +kernel
  obtain ⟨response, hresponse, hstatus, -, hrefusal⟩ := Served.answers (c := strayContext) hserved hdestination hshort
    fun route hroute => leadsTo_stray hroute ▸ isFit_stray
  exact ⟨response, hresponse, hstatus, hrefusal _ _ hleads hrefused⟩

/-- What a new lead brings with it is not looked at before it is stored; a list is no text, however well it is read. -/
theorem answered_as_broken :
    let r := posted "/api/v1/leads" "\x7b\"name\": \"Ada\", \"email\": [\"x\"]\x7d"
    empty.Served 900 ∧ r.data 900 = .ok (.object [("name", .text "Ada"), ("email", .list [.text "x"])]) ∧
      (respond atWork 900 r empty).1 = .ok .broken := by
  intro r
  refine ⟨.opened, ?_, ?_⟩ <;> decide +kernel

end Service

end StageGate
