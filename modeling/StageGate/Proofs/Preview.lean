import StageGate.Proofs.Decision
import StageGate.Proofs.Evaluation
import StageGate.Proofs.Facts
import StageGate.Proofs.Plans

/-!
This module contains what is shown of a move in advance. The verdict that is shown is the one that the move is decided
on, whatever the rules are and whatever the caller knows; both are found out before anything is written, from the
time that the entry has spent in the stage that it leaves.
-/

namespace StageGate

/-! ## What leaves on times see -/

namespace Advancement

variable {c : Call} {e : Entry} {k : Knowledge} {sla : Health} {facts : Facts}

def Knowledge.given (k : Knowledge) : Except Fault Fields :=
  k.context.asMembers.map (Members.toFields Value.asText?)

theorem Knowledge.nodup_given {given : Fields} (h : k.given = .ok given) : (given.map (·.1)).Nodup := by
  obtain ⟨members, -, rfl⟩ := map_eq_ok.mp h
  exact Fields.nodup_merge List.nodup_nil

theorem contextOf_eq (metrics : Fields) : contextOf metrics k.context = k.given.map metrics.merge := by
  unfold contextOf Knowledge.given
  cases k.context.asMembers <;> rfl

/--
What a leaf on times reads under a name: what the caller gives for it. What the caller does not give is told of
the stay of the entry in its stage, which is the one that it would leave.
-/
structure SeesTimes (c : Call) (e : Entry) (current : Stage) (sla : Health) (given : Fields) (facts : Facts) : Prop where
  told : ∀ name v, given.get? name = some v → (Leaf.source facts .time).resolve? name = .ok (some v)
  own : ∀ name v, given.get? name = none →
    (name, v) ∈ [("days_in_stage", Value.int (e.enteredAt.wholeDays c.now)), ("overdue_days", sla.overdue),
      ("days_remaining", sla.remaining), ("days_since_enrolled", .int (e.enrolledAt.wholeDays c.now))] →
    (Leaf.source facts .time).resolve? name = .ok (some v)
  overdue : ∀ n, current.deadline = .int n → sla.overdue = .int (max 0 (e.enteredAt.wholeDays c.now - n))
  remaining : ∀ n, current.deadline = .int n → sla.remaining = .int (n - e.enteredAt.wholeDays c.now)

theorem resolve?_of_get? {fields : Fields} {snapshot : Value} {name : String} {v : Value} (h : fields.get? name = some v) :
    (Leaf.source ⟨snapshot, .object fields⟩ .time).resolve? name = .ok (some v) := by
  have hsource : Leaf.source ⟨snapshot, .object fields⟩ .time = .object fields := by
    cases fields <;> rfl
  rw [hsource, Value.resolve?_of_get? h]

theorem seesTimes_of_factsOf {s : Store} {current : Stage} {given : Fields} (hcurrent : s.stage? e.stage = some current)
    (hsla : s.healthOf c.window c.now e = .ok sla) (hgiven : k.given = .ok given) (h : factsOf c e k sla s = .ok facts) :
    SeesTimes c e current sla given facts := by
  have hhealth : Health.of e.enteredAt c.now current.deadline c.window = .ok sla := by
    rw [← hsla, Store.healthOf, Store.follow_eq_ok.mpr hcurrent]
    rfl
  obtain ⟨helapsed, hdays⟩ := Health.days_of hhealth
  simp only [factsOf, contextOf_eq, hgiven, bind_eq_ok, map_eq_ok, pure, Except.pure, Except.ok.injEq] at h
  obtain ⟨_, ⟨_, rfl, rfl⟩, snapshot, -, rfl⟩ := h
  have hget (name : String) : (Fields.merge (sla.metrics e.enrolledAt c.now) given).get? name =
      (given.get? name).or ((sla.metrics e.enrolledAt c.now).get? name) := by
    rw [Fields.get?_merge, Fields.get?_reverse (Knowledge.nodup_given hgiven)]
  refine ⟨?_, ?_, fun n hn => (hdays n hn).1, fun n hn => (hdays n hn).2⟩
  . intro name v hv
    apply resolve?_of_get?
    rw [hget, hv]
    rfl
  . intro name v hnone hmem
    apply resolve?_of_get?
    rw [hget, hnone, Option.none_or, Health.metrics, helapsed]
    simp only [List.mem_cons, Prod.mk.injEq, List.not_mem_nil, or_false] at hmem
    rcases hmem with ⟨rfl, rfl⟩ | ⟨rfl, rfl⟩ | ⟨rfl, rfl⟩ | ⟨rfl, rfl⟩ <;> rfl

/-! ## Moves that are allowed -/

/--
A move that the rules of the pipeline and the room in the stage allow, so that only the criteria of the stage that
is left can stand against it. The row of the entry is one that the store takes, as every row in it is.
-/
structure IsAllowed (c : Call) (s : Store) (entry target note : Value) (e : Entry) (stage : Stage) : Prop where
  entry : s.entry entry = .ok e
  isActive : e.isActive
  admitted : s.admits e
  resolved : resolveTarget e target s = .ok stage
  signed : ∃ actor, Transaction.signature c.actor = .ok actor
  kept : ∃ kept, Column.renew e.note note = .ok kept

section

variable {s : Store} {current stage : Stage} {entry target note : Value} {new : Entry} {f : Fault}

theorem exists_lt_of_moveRefusal? {p : Pipeline} (h : moveRefusal? p current stage = .ok none) :
    ∃ isForward, current.order.lt stage.order = .ok isForward := by
  unfold moveRefusal? at h
  rw [if_neg (ne_of_moveRefusal? h), bind_eq_ok] at h
  obtain ⟨isForward, hlt, -⟩ := h
  exact ⟨isForward, hlt⟩

theorem exists_of_resolveTarget (h : resolveTarget e target s = .ok stage) : ∃ current isForward,
    s.stage? e.stage = some current ∧ current.order.lt stage.order = .ok isForward ∧
      Store.seek s.stage? target = .ok (some stage) ∧ s.stage? stage.id = some stage := by
  obtain ⟨current, p, hcurrent, -, hfound, -, hreason, -⟩ := of_resolveTarget h
  obtain ⟨isForward, hlt⟩ := exists_lt_of_moveRefusal? hreason
  obtain ⟨-, id, -, -, hid⟩ := Store.row?_of_seek hfound
  have hself : stage.id = id := by
    simpa using List.find?_some hid
  rw [← hself] at hid
  exact ⟨current, isForward, hcurrent, hlt, hfound, hid⟩

/-- The stage closes the entry, or the health of a stay in it that begins now can be told. -/
def CanLand (c : Call) (s : Store) (stage : Stage) : Prop :=
  s.isTerminal stage ∨ ∃ health, Health.of c.now c.now stage.deadline c.window = .ok health

theorem exists_placed (h : IsAllowed c s entry target note e stage) (hland : CanLand c s stage) :
    ∃ new view, placed c c.now e stage note s = .ok new ∧ s.view c.window c.now new = .ok view := by
  obtain ⟨kept, hkept⟩ := h.kept
  obtain ⟨_, _, -, -, -, hself⟩ := exists_of_resolveTarget h.resolved
  rw [placed_eq hself hkept]
  cases hterminal : s.isTerminal stage with
  | true =>
    obtain ⟨view, hview⟩ : ∃ view, s.view c.window c.now
        ({ e.moveTo stage.id c.now with note := kept }.complete c.now) = .ok view :=
      Store.exists_view_of_closed (by simp [Entry.isActive, Entry.complete])
    exact ⟨_, view, rfl, hview⟩
  | false =>
    obtain ⟨health, hhealth⟩ := hland.resolve_left (by simp [hterminal])
    obtain ⟨view, hview⟩ : ∃ view, s.view c.window c.now
        ({ e.moveTo stage.id c.now with note := kept }.remember health.bucket) = .ok view := by
      apply Store.exists_view
      exact fun _ => ⟨stage, health, hself, hhealth⟩
    rw [hhealth]
    exact ⟨_, view, rfl, hview⟩

theorem placed_of_unknown_health (h : IsAllowed c s entry target note e stage) (hterminal : ¬s.isTerminal stage)
    (hhealth : Health.of c.now c.now stage.deadline c.window = .error f) : placed c c.now e stage note s = .error f := by
  obtain ⟨kept, hkept⟩ := h.kept
  obtain ⟨_, _, -, -, -, hself⟩ := exists_of_resolveTarget h.resolved
  rw [placed_eq hself hkept, hhealth]
  exact if_neg hterminal

theorem exists_move_of_placed {isForward : Bool} {view : EntryView} (h : IsAllowed c s entry target note e stage)
    (hlt : current.order.lt stage.order = .ok isForward) (hplaced : placed c c.now e stage note s = .ok new)
    (hview : s.view c.window c.now new = .ok view) (verdict : Verdict) (sla : Health) :
    ∃ m after, move c e current stage verdict sla note s = .ok (m, after) ∧ m.verdict = verdict ∧
      m.ok ∧ m.entry.entry = new ∧ after.entries = (s.putEntry new).entries := by
  obtain ⟨actor, hactor⟩ := h.signed
  refine ⟨_, _, move_of_placed h.admitted h.isActive hplaced hlt hactor hview, rfl, ?_, Store.entry_of_view hview, rfl⟩
  cases new.isActive <;> cases isForward <;> rfl

/-! ## What a preview foretells -/

/-- The verdict, if it comes to one, is on facts that the leaves on times see as they should. -/
def IsSeen (c : Call) (k : Knowledge) (s : Store) (e : Entry) (current : Stage) (shown : Except Fault Verdict) : Prop :=
  ∀ checks sla given facts, CheckSource.compileAll (s.sourcesOf e.stage) = .ok checks →
    s.healthOf c.window c.now e = .ok sla → k.given = .ok given → factsOf c e k sla s = .ok facts →
    SeesTimes c e current sla given facts ∧
      shown = s.flagsOn e.lead checks >>= fun flags => Verdict.of facts flags checks

/--
What the evaluation that is shown in advance says of the move. If it fails, the move fails with the same fault. If it
gives a verdict, the move carries this verdict; it is refused just if the verdict says so, and otherwise the entry
moves, unless the health of its stay in the stage that it gets to cannot be told.
-/
structure Foretells (c : Call) (k : Knowledge) (s : Store) (e : Entry) (current stage : Stage)
    (shown : Except Fault Verdict) (answer : Except Fault Move) (after : Store) : Prop where
  seen : IsSeen c k s e current shown
  failed : ∀ f, shown = .error f → answer = .error f ∧ after = s
  carried : ∀ v m, shown = .ok v → answer = .ok m → m.verdict = v
  blocked : ∀ v, shown = .ok v →
    (v.canAdvance = false ↔ ∃ m, answer = .ok m ∧ m.outcome = .criteriaNotMet ∧ after = s)
  moved : ∀ v, shown = .ok v → v.canAdvance → CanLand c s stage → ∃ m new, answer = .ok m ∧ m.ok ∧
    m.entry.entry = new ∧ IsPlaced c e stage new ∧ after.entries = (s.putEntry new).entries
  stranded : ∀ v f, shown = .ok v → v.canAdvance → ¬s.isTerminal stage →
    Health.of c.now c.now stage.deadline c.window = .error f → answer = .error f ∧ after = s

section

variable {v : Verdict} {m : Move} {after : Store}

theorem foretells_of_failed (hseen : IsSeen c k s e current (.error f)) :
    Foretells c k s e current stage (.error f) (.error f) s where
  seen := hseen
  failed := by
    rintro _ ⟨⟩
    exact ⟨rfl, rfl⟩
  carried := by rintro _ _ ⟨⟩
  blocked := by rintro _ ⟨⟩
  moved := by rintro _ ⟨⟩
  stranded := by rintro _ _ ⟨⟩

theorem foretells_of_blocked (hseen : IsSeen c k s e current (.ok v)) (hblocked : ¬v.canAdvance) (hverdict : m.verdict = v)
    (houtcome : m.outcome = .criteriaNotMet) : Foretells c k s e current stage (.ok v) (.ok m) s where
  seen := hseen
  failed := by rintro _ ⟨⟩
  carried := by
    rintro _ _ ⟨⟩ ⟨⟩
    exact hverdict
  blocked := by
    rintro _ ⟨⟩
    exact ⟨fun _ => ⟨m, rfl, houtcome, rfl⟩, fun _ => Bool.eq_false_iff.mpr hblocked⟩
  moved := by
    rintro _ ⟨⟩ hcan
    exact absurd hcan hblocked
  stranded := by
    rintro _ _ ⟨⟩ hcan
    exact absurd hcan hblocked

theorem foretells_of_moved (hseen : IsSeen c k s e current (.ok v)) (hcan : v.canAdvance) (hland : CanLand c s stage)
    (hverdict : m.verdict = v) (hok : m.ok) (hplaced : IsPlaced c e stage m.entry.entry)
    (hafter : after.entries = (s.putEntry m.entry.entry).entries) :
    Foretells c k s e current stage (.ok v) (.ok m) after where
  seen := hseen
  failed := by rintro _ ⟨⟩
  carried := by
    rintro _ _ ⟨⟩ ⟨⟩
    exact hverdict
  blocked := by
    rintro _ ⟨⟩
    refine ⟨fun hblocked => by simp [hcan] at hblocked, ?_⟩
    rintro ⟨_, ⟨⟩, houtcome, -⟩
    simp [Move.ok, houtcome] at hok
  moved := by
    rintro _ ⟨⟩ - -
    exact ⟨m, _, rfl, hok, rfl, hplaced, hafter⟩
  stranded := by
    rintro _ _ ⟨⟩ - hterminal hhealth
    obtain ⟨health, h⟩ := hland.resolve_left hterminal
    rw [h] at hhealth
    cases hhealth

theorem foretells_of_stranded (hseen : IsSeen c k s e current (.ok v)) (hcan : v.canAdvance)
    (hland : ¬CanLand c s stage) (hhealth : Health.of c.now c.now stage.deadline c.window = .error f) :
    Foretells c k s e current stage (.ok v) (.error f) s where
  seen := hseen
  failed := by rintro _ ⟨⟩
  carried := by rintro _ _ - ⟨⟩
  blocked := by
    rintro _ ⟨⟩
    refine ⟨fun hblocked => by simp [hcan] at hblocked, ?_⟩
    rintro ⟨_, ⟨⟩, -⟩
  moved := by
    rintro _ ⟨⟩ - h
    exact absurd h hland
  stranded := by
    rintro _ _ ⟨⟩ - - h
    rw [hhealth] at h
    cases h
    exact ⟨rfl, rfl⟩

end

theorem isSeen_judge (hcurrent : s.stage? e.stage = some current) (k : Knowledge) :
    IsSeen c k s e current ((judge c e k s).map (·.1)) := by
  intro checks sla given facts hchecks hsla hgiven hfacts
  refine ⟨seesTimes_of_factsOf hcurrent hsla hgiven hfacts, ?_⟩
  rw [judge_eq, hchecks, hsla]
  simp only [ok_bind, verdictOn, hfacts]
  cases s.flagsOn e.lead checks with
  | error f => rfl
  | ok flags =>
    simp only [ok_bind]
    cases Verdict.of facts flags checks <;> rfl

theorem fst_preview_eq {s : Service} (hs : s.IsTrusty) (he : s.store.entry entry = .ok e) (hactive : e.isActive) :
    (preview c entry k s).1 = (judge c e k s.store).map (·.1) := by
  rw [preview_eq hs, previewing, he]
  simp only [ok_bind, hactive, ↓reduceIte]
  cases judge c e k s.store <;> rfl

theorem foretells_advancingHeld (h : IsAllowed c s entry target note e stage) (hcurrent : s.stage? e.stage = some current)
    (k : Knowledge) :
    (∃ f, advancingHeld c e target k note s = .error f ∧
        Foretells c k s e current stage ((judge c e k s).map (·.1)) (.error f) s) ∨
      ∃ m after, advancingHeld c e target k note s = .ok (m, after) ∧
        Foretells c k s e current stage ((judge c e k s).map (·.1)) (.ok m) after := by
  have hseen := isSeen_judge (c := c) hcurrent k
  cases hjudge : judge c e k s with
  | error f =>
    rw [hjudge] at hseen
    exact .inl ⟨f, advancingHeld_of_unjudged h.isActive h.resolved hcurrent hjudge, foretells_of_failed hseen⟩
  | ok judged =>
  obtain ⟨v, sla⟩ := judged
  rw [hjudge] at hseen
  by_cases hcan : v.canAdvance
  swap
  . obtain ⟨view, -, hheld⟩ : ∃ view, view.entry = e ∧ advancingHeld c e target k note s =
        .ok (⟨.criteriaNotMet, view, .null, v, sla, current.id, stage.id⟩, s) :=
      advancingHeld_of_blocked h.isActive h.resolved hcurrent hjudge hcan
    exact .inr ⟨_, s, hheld, foretells_of_blocked hseen hcan rfl rfl⟩
  rw [advancingHeld_of_judged h.isActive h.resolved hcurrent hjudge, if_pos hcan]
  -- Whatever the criteria say, a stay in the stage whose health cannot be told does not begin.
  by_cases hland : CanLand c s stage
  . obtain ⟨current', isForward, hcurrent', hlt, -, -⟩ := exists_of_resolveTarget h.resolved
    rw [hcurrent, Option.some.injEq] at hcurrent'
    subst hcurrent'
    obtain ⟨new, view, hplaced, hview⟩ := exists_placed h hland
    obtain ⟨m, after, hmove, hverdict, hok, rfl, hafter⟩ := exists_move_of_placed h hlt hplaced hview v sla
    exact .inr ⟨m, after, hmove, foretells_of_moved hseen hcan hland hverdict hok (isPlaced_of_placed hplaced) hafter⟩
  . have hterminal : ¬s.isTerminal stage := fun hterminal => hland (.inl hterminal)
    cases hhealth : Health.of c.now c.now stage.deadline c.window with
    | ok health => exact absurd (.inr ⟨health, hhealth⟩) hland
    | error f =>
      have hplaced := placed_of_unknown_health h hterminal hhealth
      exact .inl ⟨f, Transaction.reading_bind_of_error hplaced _, foretells_of_stranded hseen hcan hland hhealth⟩

/--
The verdict that is shown of an entry is the one that any allowed move of it is decided on, whatever the services have
cached and whatever stage the move is to.
-/
theorem preview_foretells {s s' : Service} (hs : s.IsTrusty) (hs' : s'.IsTrusty) (hstore : s'.store = s.store)
    (hc : c.IsUnhindered s') (h : IsAllowed c s.store entry target note e stage) (k : Knowledge) :
    ∃ current, s.store.stage? e.stage = some current ∧
      Foretells c k s.store e current stage (preview c entry k s).1 (advance c entry target k note s').1
        (advance c entry target k note s').2.store := by
  obtain ⟨current, isForward, hcurrent, -, hfound, -⟩ := exists_of_resolveTarget h.resolved
  refine ⟨current, hcurrent, ?_⟩
  have hdoes : Operation.Does (advance c entry target k note) s' (advancing c entry target k note) := by
    apply does_advance hs' hc
    rw [hstore]
    exact hfound
  have hheld : advancing c entry target k note s'.store = advancingHeld c e target k note s.store := by
    rw [hstore]
    exact Transaction.reading_bind_of_ok h.entry _
  rw [fst_preview_eq hs h.entry h.isActive]
  rcases foretells_advancingHeld h hcurrent k with ⟨f, hend, hforetells⟩ | ⟨m, after, hend, hforetells⟩
  . obtain ⟨after, hanswer, hafter⟩ := hdoes.of_error (hheld.trans hend)
    rw [hanswer]
    dsimp only
    rwa [hafter, hstore]
  . obtain ⟨after', hanswer, hafter⟩ := hdoes.of_ok (hheld.trans hend)
    rw [hanswer]
    dsimp only
    rwa [hafter]

end

end Advancement

namespace Service

open Advancement

def ripening : List Turn :=
  -- A lead in the first of three stages, which it may leave on its third day.
  let rule : Value := .object [("domain", .text "time-metric"), ("field", .text "days_in_stage"),
    ("operator", .text ">="), ("value", .int 3)]
  let criterion : Value := .object [("name", .text "Ripe"), ("kind", .text "automatic"), ("rule", rule)]
  let stages : Value := .list [.object [("name", .text "New"), ("criteria", .list [criterion])],
    .object [("name", .text "Demo")], .object [("name", .text "Won")]]
  Turn.allIn ⟨⟨63908038800000000⟩, .int 1, .int 0⟩
    [.createLead [("name", .text "Ada")],
      .createPipeline (.text "system") (.object [("name", .text "Sales"), ("stages", stages)]),
      .enroll ⟨.text "system", none, .null⟩ (.int 1) (.int 1) .null] (by decide)

/-- The fourth day of a stay that begins in `ripening`, or in `seated`. -/
def daysLater : Call :=
  ⟨.text "system", ⟨63908384400000000⟩, .int 1, .null⟩

theorem isAllowed_ripening : ∃ e stage,
    IsAllowed daysLater (reached ripening).store (.int 1) (.int 2) .null e stage ∧
      CanLand daysLater (reached ripening).store stage := by
  let e := (reached ripening).store.entries.head (by decide +kernel)
  let stage := (reached ripening).store.stages.tail.head (by decide +kernel)
  have hland : ∃ health, Health.of daysLater.now daysLater.now stage.deadline daysLater.window = .ok health :=
    exists_of_isOk (by decide +kernel)
  exact ⟨e, stage, ⟨by decide +kernel, by decide +kernel, by decide +kernel, by decide +kernel, ⟨"system", rfl⟩,
    ⟨e.note, rfl⟩⟩, .inr hland⟩

/-- The criteria are in the cache when the entry is moved, and the caller may know better how long it has stayed. -/
theorem preview_foretells_ripening :
    let s := reached ripening
    let s' := (Operation.loadChecks 1 s).2
    let early : Knowledge := ⟨.null, .object [("days_in_stage", .int 1)]⟩
    ∃ v m v' m', (preview daysLater (.int 1) ⟨.null, .null⟩ s).1 = .ok v ∧ v.canAdvance ∧
      (advance daysLater (.int 1) (.int 2) ⟨.null, .null⟩ .null s').1 = .ok m ∧ m.verdict = v ∧ m.ok ∧
      (preview daysLater (.int 1) early s).1 = .ok v' ∧ v'.canAdvance = false ∧
      (advance daysLater (.int 1) (.int 2) early .null s').1 = .ok m' ∧ m'.verdict = v' ∧
      m'.outcome = .criteriaNotMet := by
  intro s s' early
  have htrusty : s.IsTrusty := isTrusty_reached ripening
  have htrusty' : s'.IsTrusty := (Operation.loadChecks_of_isTrusty htrusty 1).2
  have hstore : s'.store = s.store := Operation.loadChecks_store 1 s
  have hfree : s'.locks.table = [] := by decide +kernel
  have hc : daysLater.IsUnhindered s' := ⟨by simp [hfree, LockTable.IsFree], rfl, .null, rfl, rfl⟩
  obtain ⟨e, stage, hallowed, hland⟩ := isAllowed_ripening
  have hripe : (preview daysLater (.int 1) ⟨.null, .null⟩ s).1.map (·.canAdvance) = .ok true := by decide +kernel
  have hunripe : (preview daysLater (.int 1) early s).1.map (·.canAdvance) = .ok false := by decide +kernel
  obtain ⟨v, hv, hcan⟩ := map_eq_ok.mp hripe
  obtain ⟨v', hv', hcannot⟩ := map_eq_ok.mp hunripe
  obtain ⟨_, -, h⟩ := preview_foretells htrusty htrusty' hstore hc hallowed ⟨.null, .null⟩
  obtain ⟨_, -, h'⟩ := preview_foretells htrusty htrusty' hstore hc hallowed early
  obtain ⟨m, _, hm, hok, -⟩ := h.moved v hv hcan hland
  obtain ⟨m', hm', houtcome, -⟩ := (h'.blocked v' hv').mp hcannot
  exact ⟨v, m, v', m', hv, hcan, hm, h.carried v m hv hm, hok, hv', hcannot, hm', h'.carried v' m' hv' hm', houtcome⟩

/-- The second stage of `seated`, with a deadline that the services would not have taken. -/
def overdrawn : Service :=
  ((Command.changeRow .stage (.int 2) [("sla_deadline_days", .int (-1))]).run ⟨⟨63908038800000000⟩, .int 1, .int 0⟩
    (reached seated)).2

theorem preview_of_negative_deadline :
    ¬∀ (s : Service) (c : Call) (entry target : Value) (e : Entry) (stage : Stage) (k : Knowledge) (v : Verdict),
      s.IsTrusty → c.IsUnhindered s → IsAllowed c s.store entry target .null e stage →
        (∃ due, c.now.addDays stage.deadline = .ok due) → (preview c entry k s).1 = .ok v → v.canAdvance →
          (advance c entry target k .null s).1.isOk := by
  intro h
  have hcache : overdrawn.cache = [] := by decide +kernel
  have hcriteria : overdrawn.store.criteria = [] := by decide +kernel
  have hfree : overdrawn.locks.table = [] := by decide +kernel
  have htrusty : overdrawn.IsTrusty := by
    constructor
    . intro x hx
      rw [hcache] at hx
      cases hx
    . intro x hx
      rw [hcriteria] at hx
      cases hx
  have hc : daysLater.IsUnhindered overdrawn := ⟨by simp [hfree, LockTable.IsFree], rfl, .null, rfl, rfl⟩
  let e := overdrawn.store.entries.head (by decide +kernel)
  let stage := overdrawn.store.stages.tail.head (by decide +kernel)
  have hallowed : IsAllowed daysLater overdrawn.store (.int 1) (.int 2) .null e stage :=
    ⟨by decide +kernel, by decide +kernel, by decide +kernel, by decide +kernel, ⟨"system", rfl⟩, ⟨e.note, rfl⟩⟩
  have hdue : ∃ due, daysLater.now.addDays stage.deadline = .ok due := exists_of_isOk (by decide +kernel)
  have hshown : (preview daysLater (.int 1) ⟨.null, .null⟩ overdrawn).1.map (·.canAdvance) = .ok true := by decide +kernel
  obtain ⟨v, hv, hcan⟩ := map_eq_ok.mp hshown
  have hanswer := h overdrawn daysLater (.int 1) (.int 2) e stage ⟨.null, .null⟩ v htrusty hc hallowed hdue hv hcan
  revert hanswer
  decide +kernel

end Service

end StageGate
