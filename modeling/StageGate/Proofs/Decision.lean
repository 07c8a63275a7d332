import StageGate.Proofs.Cache
import StageGate.Proofs.Gate
import StageGate.Proofs.Plans

/-!
This module contains how it is decided whether an entry moves: which of the things that can stand against a
move counts, in what order, and what is written if nothing does.
-/

namespace StageGate

open Transaction Operation

namespace Advancement

/-! ## Moves -/

/-- An entry that has got to a stage; the stage closes it if it is terminal. -/
def landed (c : Call) (e : Entry) (target : Stage) (note : Option String) (bucket : Bucket) (s : Store) : Entry :=
  { e with
    stage := target.id
    enteredAt := c.now
    note := note.or e.note
    status := if s.isTerminal target then .completed else e.status
    closedAt := if s.isTerminal target then some c.now else e.closedAt
    healthCache := if s.isTerminal target then none else some bucket.name }

def outcomeOf (current target : Stage) (s : Store) : MoveOutcome :=
  if s.isTerminal target then .completed
  else if current.order.isBelow target.order then .advanced
  else .regressed

def movedRow (c : Call) (e new : Entry) (current target : Stage) (outcome : MoveOutcome) (sla : Health)
    (warnings : List Value) (actor : String) (s : Store) : AuditRow :=
  Note.row ⟨.entry, e.id, some e.lead, some e.pipeline, outcome.action, c.actor,
    .moved current.ref target.ref new.status sla warnings⟩ actor c.now s

section

variable {c : Call} {s : Store} {e : Entry} {current target : Stage} {verdict : Verdict} {sla : Health}
  {note : Option String} {id : Int}

theorem renew_ofText? {kept given : Option String} (h : Column.text (.ofText? note) = .ok given) :
    Column.renew kept (.ofText? note) = .ok (note.or kept) := by
  cases note with
  | none => rfl
  | some text =>
    have htext : Column.text (.text text) = .ok given := h
    have hgiven := htext
    simp only [Column.text, bind_eq_ok, pure, Except.pure, Except.ok.injEq] at hgiven
    obtain ⟨_, -, rfl⟩ := hgiven
    exact htext

theorem placed_of_unkept {f : Fault} (h : Column.text (.ofText? note) = .error f) :
    placed c c.now e target (.ofText? note) s = .error f := by
  cases note with
  | none => cases h
  | some text =>
    have hrenew : Column.renew e.note (.ofText? (some text)) = .error f := h
    rw [placed_universal, hrenew]
    rfl

/-- An entry that gets to a stage is closed by it, or its health is that of a stay that begins. -/
theorem placed_eq {given : Value} {kept : Option String} (hfound : s.stage? target.id = some target)
    (hkept : Column.renew e.note given = .ok kept) : placed c c.now e target given s =
      let moved := { e.moveTo target.id c.now with note := kept }
      if s.isTerminal target then .ok (moved.complete c.now)
      else (Health.of c.now c.now target.deadline c.window).map fun health => moved.remember health.bucket := by
  have hhealth : s.healthOf c.window c.now { e.moveTo target.id c.now with note := kept } =
      Health.of c.now c.now target.deadline c.window := by
    simp only [Store.healthOf, Entry.moveTo, hfound, Store.follow, bind, Except.bind]
  rw [placed_universal]
  simp only [hkept, hhealth, ok_bind]
  split
  . rfl
  . cases Health.of c.now c.now target.deadline c.window <;> rfl

theorem placed_of_suits {health : Health} {given : Option String} (hfound : s.stage? target.id = some target)
    (hhealth : Health.of c.now c.now target.deadline c.window = .ok health)
    (hnote : Column.text (.ofText? note) = .ok given) :
    placed c c.now e target (.ofText? note) s = .ok (landed c e target note health.bucket s) := by
  rw [placed_eq hfound (renew_ofText? hnote), hhealth]
  unfold landed
  cases s.isTerminal target <;> rfl

theorem exists_health (hs : s.IsSound) (hk : s.IsConsistent) (hfound : s.stage? id = some target)
    (hsuits : c.Suits target) : ∃ health, Health.of c.now c.now target.deadline c.window = .ok health := by
  obtain ⟨due, hdue⟩ := hsuits.due
  exact Health.exists_of (hk.deadlines target (hs.stage?_eq_some.mp hfound).1) hsuits.window hdue c.now

theorem isActive_landed {bucket : Bucket} (hactive : e.isActive) :
    (landed c e target note bucket s).isActive = !s.isTerminal target := by
  rw [Entry.isActive_iff] at hactive
  cases hterminal : s.isTerminal target <;> simp [landed, Entry.isActive, hterminal, hactive]

theorem move_of_unkept {f : Fault} (h : Column.text (.ofText? note) = .error f) :
    move c e current target verdict sla (.ofText? note) s = .error f :=
  reading_bind_of_error (placed_of_unkept h) _

theorem exists_move (hs : s.IsSound) (hk : s.IsConsistent) (he : e ∈ s.entries) (hactive : e.isActive)
    (hhere : s.stage? e.stage = some current) (hfound : s.stage? id = some target) (hsuits : c.Suits target)
    {given : Option String} (hnote : Column.text (.ofText? note) = .ok given) (verdict : Verdict) (sla : Health) :
    ∃ view actor health, signature c.actor = .ok actor ∧
      Health.of c.now c.now target.deadline c.window = .ok health ∧
      let new := landed c e target note health.bucket s
      let outcome := outcomeOf current target s
      view.entry = new ∧ move c e current target verdict sla (.ofText? note) s =
        .ok (⟨outcome, view, .ofText? note, verdict, sla, current.id, target.id⟩, (s.putEntry new).addAudit
          (movedRow c e new current target outcome sla (verdict.warnings.map (·.check.name)) actor s)) := by
  obtain ⟨actor, hactor⟩ := hsuits.actor
  obtain ⟨health, hhealth⟩ := exists_health hs hk hfound hsuits
  obtain ⟨hmem, hid⟩ := hs.stage?_eq_some.mp hfound
  have hself : s.stage? target.id = some target := hs.stage?_eq_some.mpr ⟨hmem, rfl⟩
  have hlt : current.order.lt target.order = .ok (current.order.isBelow target.order) :=
    Value.lt_of_isNumber (hs.orders current (hs.stage?_eq_some.mp hhere).1) (hs.orders target hmem)
  let new := landed c e target note health.bucket s
  have hplaced : placed c c.now e target (.ofText? note) s = .ok new := placed_of_suits hself hhealth hnote
  have hadmits : s.admits e := hs.admits he rfl rfl rfl fun h => h
  obtain ⟨view, hview⟩ : ∃ view, s.view c.window c.now new = .ok view :=
    Store.exists_view fun _ => ⟨target, health, hself, hhealth⟩
  refine ⟨view, actor, health, hactor, hhealth, Store.entry_of_view hview, ?_⟩
  have houtcome : (if !new.isActive then MoveOutcome.completed
      else if current.order.isBelow target.order then .advanced else .regressed) = outcomeOf current target s := by
    simp only [new, isActive_landed hactive, Bool.not_not]
    rfl
  rw [move_of_placed hadmits hactive hplaced hlt hactor hview]
  dsimp only
  rw [houtcome]
  rfl

end

/-! ## What decides -/

section

variable {c : Call} {s : Store} {e : Entry} {current target : Stage} {k : Knowledge} {note name : Value}

theorem advancingHeld_of_inactive (h : ¬e.isActive) : advancingHeld c e name k note s =
    .error (.refused (.notActive (.int e.id) (.text e.status.name))) := by
  unfold advancingHeld
  apply Transaction.bind_of_error
  rw [Bool.eq_false_iff.mpr h]
  rfl

theorem advancingHeld_of_unresolved {f : Fault} (h : e.isActive) (hname : resolveTarget e name s = .error f) :
    advancingHeld c e name k note s = .error f := by
  unfold advancingHeld
  rw [Transaction.bind_of_ok ((demand_eq_ok (u := ())).mpr ⟨h, rfl⟩)]
  exact reading_bind_of_error hname _

theorem advancingHeld_of_unjudged {f : Fault} (h : e.isActive) (hname : resolveTarget e name s = .ok target)
    (hhere : s.stage? e.stage = some current) (hjudge : judge c e k s = .error f) :
    advancingHeld c e name k note s = .error f := by
  unfold advancingHeld
  rw [Transaction.bind_of_ok ((demand_eq_ok (u := ())).mpr ⟨h, rfl⟩), reading_bind_of_ok hname,
    reading_bind_of_ok (Store.follow_eq_ok.mpr hhere)]
  exact reading_bind_of_error hjudge _

theorem advancingHeld_of_judged {verdict : Verdict} {sla : Health} (h : e.isActive)
    (hname : resolveTarget e name s = .ok target) (hhere : s.stage? e.stage = some current)
    (hjudge : judge c e k s = .ok (verdict, sla)) : advancingHeld c e name k note s =
      (if verdict.canAdvance then move c e current target verdict sla note
      else do
        let view ← Transaction.reading (·.view c.window c.now e)
        return ⟨.criteriaNotMet, view, .null, verdict, sla, current.id, target.id⟩) s := by
  unfold advancingHeld
  rw [Transaction.bind_of_ok ((demand_eq_ok (u := ())).mpr ⟨h, rfl⟩), reading_bind_of_ok hname,
    reading_bind_of_ok (Store.follow_eq_ok.mpr hhere), reading_bind_of_ok hjudge]

theorem advancingHeld_of_blocked {verdict : Verdict} {sla : Health} (h : e.isActive)
    (hname : resolveTarget e name s = .ok target) (hhere : s.stage? e.stage = some current)
    (hjudge : judge c e k s = .ok (verdict, sla)) (hblocked : ¬verdict.canAdvance) :
    ∃ view, view.entry = e ∧ advancingHeld c e name k note s =
      .ok (⟨.criteriaNotMet, view, .null, verdict, sla, current.id, target.id⟩, s) := by
  have hsla := (of_judge hjudge).1
  rw [Store.healthOf, bind_eq_ok] at hsla
  obtain ⟨stage, hstage, hhealth⟩ := hsla
  obtain ⟨view, hview⟩ : ∃ view, s.view c.window c.now e = .ok view :=
    Store.exists_view fun _ => ⟨stage, sla, Store.follow_eq_ok.mp hstage, hhealth⟩
  refine ⟨view, Store.entry_of_view hview, ?_⟩
  rw [advancingHeld_of_judged h hname hhere hjudge, if_neg hblocked]
  exact (reading_bind_of_ok hview _).trans rfl

end

/-! ## How a move can end -/

/-- How a move of an entry can end. -/
inductive Ending where
  | unknown
  | closed
  | barred
  | full
  | broken
  | blocked
  | moved
  deriving DecidableEq

def Ending.of : Except Fault Move → Ending
  | .error (.refused (.notFound ..)) => .unknown
  | .error (.refused (.notActive ..)) => .closed
  | .error (.refused (.invalidTarget ..)) => .barred
  | .error (.refused (.capacityReached ..)) => .full
  | .error _ => .broken
  | .ok m => if m.ok then .moved else .blocked

@[simp]
theorem Ending.of_plain {f : Fault} (h : f.IsPlain) : Ending.of (.error f) = .broken := by
  cases f with
  | broken => rfl
  | refused r =>
    cases r with
    | misconfigured => rfl
    | _ => cases h

theorem plain_judge (c : Call) (e : Entry) (k : Knowledge) (s : Store) : Plain (judge c e k s) := by
  have hchecks : Plain (CheckSource.compileAll (s.sourcesOf e.stage)) :=
    ends_mapM fun source _ => source.plain_compile
  rw [judge_universal]
  simp [hchecks]

/-- A move against which nothing stands but the criteria of the stage that it leaves. -/
structure IsOpen (s : Store) (n m : Int) (e : Entry) (current target : Stage) : Prop where
  row : s.entryRow? n = some e
  isActive : e.isActive
  here : s.stage? e.stage = some current
  found : s.stage? m = some target
  unbarred : ¬Bars s e m
  room : ¬IsFull s target

/-- How it is decided on a move that is open: the end, the answer and the store after it. -/
inductive Settles (c : Call) (k : Knowledge) (note : Option String) (s : Store) (e : Entry) (current target : Stage) :
    Ending → Except Fault Move → Store → Prop where
  | unjudged {f : Fault} (judged : judge c e k s = .error f) :
      Settles c k note s e current target .broken (.error f) s
  | blocked {verdict : Verdict} {sla : Health} {view : EntryView} (judged : judge c e k s = .ok (verdict, sla))
      (isBlocked : ¬verdict.canAdvance) (shown : view.entry = e) :
      Settles c k note s e current target .blocked
        (.ok ⟨.criteriaNotMet, view, .null, verdict, sla, current.id, target.id⟩) s
  | unkept {verdict : Verdict} {sla : Health} {f : Fault} (judged : judge c e k s = .ok (verdict, sla))
      (unblocked : verdict.canAdvance) (unkept : Column.text (.ofText? note) = .error f) :
      Settles c k note s e current target .broken (.error f) s
  | moved {verdict : Verdict} {sla health : Health} {view : EntryView} {actor : String} {kept : Option String}
      (judged : judge c e k s = .ok (verdict, sla)) (unblocked : verdict.canAdvance)
      (stored : Column.text (.ofText? note) = .ok kept) (signed : signature c.actor = .ok actor)
      (healthy : Health.of c.now c.now target.deadline c.window = .ok health)
      (shown : view.entry = landed c e target note health.bucket s) :
      Settles c k note s e current target .moved
        (.ok ⟨outcomeOf current target s, view, .ofText? note, verdict, sla, current.id, target.id⟩)
        { s with
          entries := s.entries.map fun x => if x.id = e.id then landed c e target note health.bucket s else x
          audit := s.audit ++ [movedRow c e (landed c e target note health.bucket s) current target
            (outcomeOf current target s) sla (verdict.warnings.map (·.check.name)) actor s] }

/-- How it is decided on the move of an entry to a stage, case by case. -/
inductive Decides (c : Call) (n m : Int) (k : Knowledge) (note : Option String) (s : Store) :
    Ending → Except Fault Move → Store → Prop where
  | unknown (row : s.entryRow? n = none) :
      Decides c n m k note s .unknown (.error (.refused (.notFound "PipelineEntry" (.int n)))) s
  | closed {e : Entry} (row : s.entryRow? n = some e) (inactive : ¬e.isActive) :
      Decides c n m k note s .closed (.error (.refused (.notActive (.int e.id) (.text e.status.name)))) s
  | barred {e : Entry} {reason : String} (row : s.entryRow? n = some e) (isActive : e.isActive) (bars : Bars s e m) :
      Decides c n m k note s .barred (.error (.refused (.invalidTarget (.int e.id) (.int m) (.text reason)))) s
  | full {e : Entry} {target : Stage} (row : s.entryRow? n = some e) (isActive : e.isActive) (unbarred : ¬Bars s e m)
      (found : s.stage? m = some target) (full : IsFull s target) :
      Decides c n m k note s .full (.error (.refused (.capacityReached (.int e.id) (.int target.id) target.limit))) s
  | settled {e : Entry} {current target : Stage} {ending : Ending} {answer : Except Fault Move} {after : Store}
      (way : IsOpen s n m e current target) (settles : Settles c k note s e current target ending answer after) :
      Decides c n m k note s ending answer after

section

variable {c : Call} {n m : Int} {k : Knowledge} {note : Option String} {s : Service}

/-- What is so of a service at rest, so that a move is one transaction. -/
structure IsAtRest (c : Call) (s : Service) : Prop where
  sound : s.store.IsSound
  consistent : s.store.IsConsistent
  trusty : s.IsTrusty
  unhindered : c.IsUnhindered s

theorem exists_decides {s : Store} (hs : s.IsSound) (hk : s.IsConsistent) (hn : Column.checkInt n = .ok ())
    (hm : Column.checkInt m = .ok ()) (hsuits : ∀ target, s.stage? m = some target → c.Suits target) :
    ∃ ending, (∃ f, advancing c (.int n) (.int m) k (.ofText? note) s = .error f ∧
        Decides c n m k note s ending (.error f) s) ∨
      ∃ move s', advancing c (.int n) (.int m) k (.ofText? note) s = .ok (move, s') ∧
        Decides c n m k note s ending (.ok move) s' := by
  have hentry : s.entry (.int n) = _ := Store.require_int hn
  unfold advancing
  -- What stands against the move is gone through in the order in which the transaction asks for it.
  cases hrow : s.entryRow? n with
  | none =>
    rw [hrow] at hentry
    exact ⟨_, .inl ⟨_, reading_bind_of_error hentry _, .unknown hrow⟩⟩
  | some e =>
  rw [hrow] at hentry
  rw [reading_bind_of_ok hentry]
  have he := Store.mem_of_entry hentry
  by_cases hactive : e.isActive
  swap
  . exact ⟨_, .inl ⟨_, advancingHeld_of_inactive hactive, .closed hrow hactive⟩⟩
  by_cases hbars : Bars s e m
  . obtain ⟨reason, hname⟩ := resolveTarget_of_bars hs hk he hm hbars
    exact ⟨_, .inl ⟨_, advancingHeld_of_unresolved hactive hname, .barred hrow hactive hbars⟩⟩
  obtain ⟨target, hfound⟩ : ∃ target, s.stage? m = some target :=
    Option.ne_none_iff_exists'.mp fun hnone => hbars (.missing hnone)
  obtain ⟨hfull, hroom⟩ := resolveTarget_of_not_bars hs hk he hm hfound hbars
  by_cases hcapacity : IsFull s target
  . exact ⟨_, .inl ⟨_, advancingHeld_of_unresolved hactive (hfull hcapacity),
      .full hrow hactive hbars hfound hcapacity⟩⟩
  have hname := hroom hcapacity
  obtain ⟨current, -, hhere, -⟩ := hs.exists_stage he
  have hway : IsOpen s n m e current target := ⟨hrow, hactive, hhere, hfound, hbars, hcapacity⟩
  cases hjudge : judge c e k s with
  | error f => exact ⟨_, .inl ⟨f, advancingHeld_of_unjudged hactive hname hhere hjudge, .settled hway (.unjudged hjudge)⟩⟩
  | ok r =>
  obtain ⟨verdict, sla⟩ := r
  by_cases hclear : verdict.canAdvance
  swap
  . obtain ⟨view, hview, hblocked⟩ := advancingHeld_of_blocked hactive hname hhere hjudge hclear
    exact ⟨_, .inr ⟨_, s, hblocked, .settled hway (.blocked hjudge hclear hview)⟩⟩
  rw [advancingHeld_of_judged hactive hname hhere hjudge, if_pos hclear]
  cases hnote : Column.text (.ofText? note) with
  | error f => exact ⟨_, .inl ⟨f, move_of_unkept hnote, .settled hway (.unkept hjudge hclear hnote)⟩⟩
  | ok kept =>
    obtain ⟨view, actor, health, hactor, hhealth, hview, hmove⟩ :=
      exists_move hs hk he hactive hhere hfound (hsuits target hfound) hnote verdict sla
    exact ⟨_, .inr ⟨_, _, hmove, .settled hway (.moved hjudge hclear hnote hactor hhealth hview)⟩⟩

theorem does_advance_of_unsought {entry target note : Value} {f : Fault} (hc : c.IsUnhindered s)
    (htarget : Store.seek s.store.stage? target = .error f) : Does (advance c entry target k note) s (do
      let _ ← Transaction.reading (·.entry entry)
      throw f) := by
  unfold advance
  apply does_reading_bind
  intro e _
  obtain ⟨left, hleft, -⟩ := hc.wait.left
  apply does_of_reading hleft
  have hkey : (LockKey.entry (.int e.lead) (.int e.pipeline)).isUsable := rfl
  obtain ⟨table, htable, -⟩ := LockTable.exists_enter hc.free hkey hc.wait.check
    (LockKey.entry (.int e.lead) (.int e.pipeline)).waiter
  apply does_holding htable
  have hcapped : cappedStage? target s.store = .error f := by
    unfold cappedStage?
    rw [htarget]
    rfl
  exact ⟨_, Operation.bind_of_error ((Operation.reading_eq _ _).trans (Prod.ext hcapped rfl)) _, rfl⟩

theorem advance_of_no_entry {f : Fault} {entry target note : Value} (hentry : s.store.entry entry = .error f) :
    advance c entry target k note s = (.error f, s) :=
  Operation.bind_of_error ((Operation.reading_eq _ _).trans (Prod.ext hentry rfl)) _

theorem advance_of_unfit_entry {target note : Value} (hn : Column.checkInt n ≠ .ok ()) :
    advance c (.int n) target k note s = (.error (.broken .tooLarge), s) :=
  advance_of_no_entry (Store.require_of_unfit hn)

theorem advance_of_missing {target note : Value} (hn : Column.checkInt n = .ok ())
    (hrow : s.store.entryRow? n = none) : advance c (.int n) target k note s =
      (.error (.refused (.notFound "PipelineEntry" (.int n))), s) := by
  apply advance_of_no_entry
  rw [Store.entry, Store.require_int hn, hrow]

theorem advance_of_unfit_target (hc : c.IsUnhindered s) (hn : Column.checkInt n = .ok ())
    (hm : Column.checkInt m ≠ .ok ()) {e : Entry} (he : s.store.entryRow? n = some e) (k : Knowledge) (note : Value) :
    ∃ s', advance c (.int n) (.int m) k note s = (.error (.broken .tooLarge), s') ∧ s'.store = s.store := by
  apply (does_advance_of_unsought hc (Store.seek_of_unfit hm)).of_error
  have hentry : s.store.entry (.int n) = .ok e := by rw [Store.entry, Store.require_int hn, he]
  exact (reading_bind_of_ok hentry _).trans rfl

theorem decides_of_rest (h : IsAtRest c s) (hn : Column.checkInt n = .ok ()) (hm : Column.checkInt m = .ok ())
    (hsuits : ∀ target, s.store.stage? m = some target → c.Suits target) (k : Knowledge) (note : Option String) :
    ∃ ending, Decides c n m k note s.store ending (advance c (.int n) (.int m) k (.ofText? note) s).1
      (advance c (.int n) (.int m) k (.ofText? note) s).2.store := by
  have hdoes := does_advance h.trusty h.unhindered (Store.seek_int hm) (.int n) k (.ofText? note)
  obtain ⟨ending, h⟩ := exists_decides h.sound h.consistent hn hm hsuits
  refine ⟨ending, ?_⟩
  rcases h with ⟨f, hfault, hdecides⟩ | ⟨move, s', hmove, hdecides⟩
  . obtain ⟨after, hanswer, hstore⟩ := hdoes.of_error hfault
    rw [hanswer, hstore]
    exact hdecides
  . obtain ⟨after, hanswer, hstore⟩ := hdoes.of_ok hmove
    rw [hanswer, hstore]
    exact hdecides

end

/-! ## The decision as the answer shows it -/

/-- The same from the answer: which kind of answer is given if and only if what is so of the store. -/
structure DecisionLaw (c : Call) (n m : Int) (k : Knowledge) (note : Option String) (s : Store)
    (answer : Except Fault Move) (after : Store) : Prop where
  unknown : Ending.of answer = .unknown ↔ s.entryRow? n = none
  closed : ∀ e, s.entryRow? n = some e → (Ending.of answer = .closed ↔ ¬e.isActive)
  barred : ∀ e, s.entryRow? n = some e → e.isActive → (Ending.of answer = .barred ↔ Bars s e m)
  full : ∀ e target, s.entryRow? n = some e → e.isActive → ¬Bars s e m → s.stage? m = some target →
    (Ending.of answer = .full ↔ IsFull s target)
  unjudged : ∀ e current target, IsOpen s n m e current target →
    ∀ f, judge c e k s = .error f → answer = .error f
  blocked : ∀ e current target, IsOpen s n m e current target → ∀ verdict sla, judge c e k s = .ok (verdict, sla) →
    ∃ facts, factsOf c e k sla s = .ok facts ∧ (Ending.of answer = .blocked ↔ ∃ x, IsUnmet s e facts x)
  unkept : ∀ e current target, IsOpen s n m e current target → ∀ verdict sla, judge c e k s = .ok (verdict, sla) →
    verdict.canAdvance → ∀ f, Column.text (.ofText? note) = .error f → answer = .error f
  moved : ∀ e current target, IsOpen s n m e current target → ∀ verdict sla, judge c e k s = .ok (verdict, sla) →
    verdict.canAdvance → ∀ kept, Column.text (.ofText? note) = .ok kept →
      ∃ view actor health, signature c.actor = .ok actor ∧
        Health.of c.now c.now target.deadline c.window = .ok health ∧
        view.entry = landed c e target note health.bucket s ∧
        answer = .ok ⟨outcomeOf current target s, view, .ofText? note, verdict, sla, current.id, target.id⟩ ∧
        after = { s with
          entries := s.entries.map fun x => if x.id = e.id then view.entry else x
          audit := s.audit ++ [movedRow c e view.entry current target (outcomeOf current target s) sla
            (verdict.warnings.map (·.check.name)) actor s] }

section

variable {c : Call} {n m : Int} {k : Knowledge} {note : Option String} {s after : Store} {answer : Except Fault Move}
  {kind : Ending} {e : Entry} {current target : Stage}

theorem Settles.ending (h : Settles c k note s e current target kind answer after) :
    Ending.of answer = kind := by
  cases h with
  | unjudged judged => exact Ending.of_plain (plain_judge c e k s _ judged)
  | unkept _ _ unkept => exact Ending.of_plain (Column.plain_text _ _ unkept)
  | blocked => rfl
  | moved =>
    have hok : outcomeOf current target s ≠ .criteriaNotMet := by
      unfold outcomeOf
      split
      . simp
      . split <;> simp
    simp [Ending.of, Move.ok, hok]

/-- A move that is open ends in none of the ways that something else than the criteria brings about. -/
theorem Settles.late (h : Settles c k note s e current target kind answer after) :
    kind ∉ [.unknown, .closed, .barred, .full] := by
  cases h <;> simp

theorem Decides.ending (h : Decides c n m k note s kind answer after) : Ending.of answer = kind := by
  cases h with
  | settled way settles => exact settles.ending
  | _ => rfl

theorem Decides.unchanged (h : Decides c n m k note s kind answer after) (hend : kind ≠ .moved) : after = s := by
  cases h with
  | settled way settles =>
    cases settles with
    | moved => exact absurd rfl hend
    | _ => rfl
  | _ => rfl

theorem IsOpen.unique {e' : Entry} {current' target' : Stage} (h : IsOpen s n m e current target)
    (h' : IsOpen s n m e' current' target') : e' = e ∧ current' = current ∧ target' = target := by
  obtain rfl := Option.some.inj (h.row.symm.trans h'.row)
  obtain rfl := Option.some.inj (h.here.symm.trans h'.here)
  obtain rfl := Option.some.inj (h.found.symm.trans h'.found)
  exact ⟨rfl, rfl, rfl⟩

theorem Decides.settles_of_isOpen (h : Decides c n m k note s kind answer after)
    (way : IsOpen s n m e current target) : Settles c k note s e current target kind answer after := by
  cases h with
  | unknown row => cases row.symm.trans way.row
  | closed row inactive =>
    obtain rfl := Option.some.inj (way.row.symm.trans row)
    exact absurd way.isActive inactive
  | barred row _ bars =>
    obtain rfl := Option.some.inj (way.row.symm.trans row)
    exact absurd bars way.unbarred
  | full _ _ _ found full =>
    obtain rfl := Option.some.inj (way.found.symm.trans found)
    exact absurd full way.room
  | settled way' settles =>
    obtain ⟨rfl, rfl, rfl⟩ := way.unique way'
    exact settles

theorem decisionLaw_of_decides (h : Decides c n m k note s kind answer after) :
    DecisionLaw c n m k note s answer after where
  unknown := by
    rw [h.ending]
    cases h with
    | unknown row => simp [row]
    | settled way settles =>
      have hlate := settles.late
      simp_all [way.row]
    | _ row => simp [row]
  closed := by
    intro e he
    rw [h.ending]
    cases h with
    | unknown row => cases row.symm.trans he
    | closed row inactive =>
      obtain rfl := Option.some.inj (row.symm.trans he)
      simp [inactive]
    | barred row isActive | full row isActive =>
      obtain rfl := Option.some.inj (row.symm.trans he)
      simp [isActive]
    | settled way settles =>
      obtain rfl := Option.some.inj (way.row.symm.trans he)
      have hlate := settles.late
      simp_all [way.isActive]
  barred := by
    intro e he hactive
    rw [h.ending]
    cases h with
    | unknown row => cases row.symm.trans he
    | closed row inactive =>
      obtain rfl := Option.some.inj (row.symm.trans he)
      exact absurd hactive inactive
    | barred row _ bars =>
      obtain rfl := Option.some.inj (row.symm.trans he)
      simp [bars]
    | full row _ unbarred =>
      obtain rfl := Option.some.inj (row.symm.trans he)
      simp [unbarred]
    | settled way settles =>
      obtain rfl := Option.some.inj (way.row.symm.trans he)
      have hlate := settles.late
      simp_all [way.unbarred]
  full := by
    intro e target he hactive hbars hfound
    rw [h.ending]
    cases h with
    | unknown row => cases row.symm.trans he
    | closed row inactive =>
      obtain rfl := Option.some.inj (row.symm.trans he)
      exact absurd hactive inactive
    | barred row _ bars =>
      obtain rfl := Option.some.inj (row.symm.trans he)
      exact absurd bars hbars
    | full _ _ _ found full =>
      obtain rfl := Option.some.inj (found.symm.trans hfound)
      simp [full]
    | settled way settles =>
      obtain rfl := Option.some.inj (way.found.symm.trans hfound)
      have hlate := settles.late
      simp_all [way.room]
  unjudged := by
    intro e current target way f judged
    cases h.settles_of_isOpen way with
    | unjudged judged' =>
      rw [judged] at judged'
      cases judged'
      rfl
    | _ judged' => cases judged.symm.trans judged'
  blocked := by
    intro e current target way verdict sla judged
    obtain ⟨-, facts, hfacts, hiff⟩ := of_judge judged
    refine ⟨facts, hfacts, ?_⟩
    rw [← hiff, h.ending]
    cases h.settles_of_isOpen way with
    | unjudged judged' => cases judged.symm.trans judged'
    | blocked judged' isBlocked =>
      cases judged.symm.trans judged'
      simp [isBlocked]
    | unkept judged' unblocked | moved judged' unblocked =>
      cases judged.symm.trans judged'
      simp [unblocked]
  unkept := by
    intro e current target way verdict sla judged unblocked f unkept
    cases h.settles_of_isOpen way with
    | unjudged judged' => cases judged.symm.trans judged'
    | blocked judged' isBlocked =>
      cases judged.symm.trans judged'
      exact absurd unblocked isBlocked
    | unkept _ _ unkept' =>
      cases unkept.symm.trans unkept'
      rfl
    | moved _ _ stored => cases unkept.symm.trans stored
  moved := by
    intro e current target way verdict sla judged unblocked kept stored
    cases h.settles_of_isOpen way with
    | unjudged judged' => cases judged.symm.trans judged'
    | blocked judged' isBlocked =>
      cases judged.symm.trans judged'
      exact absurd unblocked isBlocked
    | unkept _ _ unkept => cases stored.symm.trans unkept
    | moved judged' _ _ signed healthy shown =>
      cases judged.symm.trans judged'
      exact ⟨_, _, _, signed, healthy, shown, rfl, by rw [shown]⟩

end

section

variable {c : Call} {n m : Int} {k : Knowledge} {note : Option String} {s : Service}

theorem store_of_unmoved (h : IsAtRest c s) (hsuits : ∀ target, s.store.stage? m = some target → c.Suits target)
    (hend : Ending.of (advance c (.int n) (.int m) k (.ofText? note) s).1 ≠ .moved) :
    (advance c (.int n) (.int m) k (.ofText? note) s).2.store = s.store := by
  by_cases hn : Column.checkInt n = .ok ()
  swap
  . rw [advance_of_unfit_entry hn]
  cases hrow : s.store.entryRow? n with
  | none => rw [advance_of_missing hn hrow]
  | some e =>
    by_cases hm : Column.checkInt m = .ok ()
    . obtain ⟨ending, hdecides⟩ := decides_of_rest h hn hm hsuits k note
      rw [hdecides.ending] at hend
      exact hdecides.unchanged hend
    . obtain ⟨s', hanswer, hstore⟩ := advance_of_unfit_target h.unhindered hn hm hrow k (.ofText? note)
      rw [hanswer]
      exact hstore

end

end Advancement

namespace Service

open Advancement

/--
In every store that is reached, a move is decided in one order: whether there is the entry, whether it is active,
whether it may get to the stage, whether there is room, and whether the criteria of its stage are met. An id that
is beyond the column of ids cannot be asked for, and nothing is changed unless the entry is moved.
-/
theorem reached_advance (ts : List Turn) {c : Call} (hc : c.IsUnhindered (reached ts)) (n m : Int) (k : Knowledge)
    (note : Option String) (hsuits : ∀ target, (reached ts).store.stage? m = some target → c.Suits target) :
    let s := reached ts
    let r := advance c (.int n) (.int m) k (.ofText? note) s
    (Column.checkInt n ≠ .ok () → r.1 = .error (.broken .tooLarge)) ∧
      (Column.checkInt n = .ok () → s.store.entryRow? n = none →
        r.1 = .error (.refused (.notFound "PipelineEntry" (.int n)))) ∧
      (Column.checkInt n = .ok () → Column.checkInt m ≠ .ok () → s.store.entryRow? n ≠ none →
        r.1 = .error (.broken .tooLarge)) ∧
      (Column.checkInt n = .ok () → Column.checkInt m = .ok () → DecisionLaw c n m k note s.store r.1 r.2.store) ∧
      (Ending.of r.1 ≠ .moved → r.2.store = s.store) := by
  intro s r
  have hrest : IsAtRest c s := ⟨isSound_reached ts, isConsistent_reached ts, isTrusty_reached ts, hc⟩
  refine ⟨?_, ?_, ?_, ?_, store_of_unmoved hrest hsuits⟩
  . intro hn
    exact congrArg Prod.fst (advance_of_unfit_entry hn)
  . intro hn hrow
    exact congrArg Prod.fst (advance_of_missing hn hrow)
  . intro hn hm hrow
    obtain ⟨e, he⟩ := Option.ne_none_iff_exists'.mp hrow
    obtain ⟨s', hr, -⟩ := advance_of_unfit_target hc hn hm he k (.ofText? note)
    exact congrArg Prod.fst hr
  . intro hn hm
    obtain ⟨ending, hdecides⟩ := decides_of_rest hrest hn hm hsuits k note
    exact decisionLaw_of_decides hdecides

def seated : List Turn :=
  -- A lead in the first of three stages.
  let stages : Value :=
    .list [.object [("name", .text "New")], .object [("name", .text "Demo")], .object [("name", .text "Won")]]
  Turn.allIn ⟨⟨63908038800000000⟩, .int 1, .int 0⟩
    [.createLead [("name", .text "Ada")],
      .createPipeline (.text "system") (.object [("name", .text "Sales"), ("stages", stages)]),
      .enroll ⟨.text "system", none, .null⟩ (.int 1) (.int 1) .null] (by decide)

theorem reached_advance_seated :
    let s := reached seated
    let c : Call := ⟨.text "system", ⟨63908038800000000⟩, .int 1, .null⟩
    let moved := advance c (.int 1) (.int 2) ⟨.null, .null⟩ (.ofText? (some "called back")) s
    Ending.of moved.1 = .moved ∧
      DecisionLaw c 1 2 ⟨.null, .null⟩ (some "called back") s.store moved.1 moved.2.store := by
  intro s c moved
  have hfree : s.locks.table = [] := by decide +kernel
  have hc : c.IsUnhindered s := ⟨by simp [hfree, LockTable.IsFree], rfl, .null, rfl, rfl⟩
  have hsuits : ∀ target, s.store.stage? 2 = some target → c.Suits target := by
    intro target htarget
    have hdeadline : (s.store.stage? 2).all (·.deadline = .int 0) := by decide +kernel
    have hdeadline : target.deadline = .int 0 := by simpa [htarget] using hdeadline
    refine ⟨⟨"system", rfl⟩, Value.isNumber_int 1, ?_⟩
    rw [hdeadline]
    exact exists_of_isOk (by decide +kernel)
  have hlaw := reached_advance seated hc 1 2 ⟨.null, .null⟩ (some "called back") hsuits
  exact ⟨by decide +kernel, hlaw.2.2.2.1 rfl rfl⟩

/-- An id or a note that no column can keep is refused for that, whatever the entry and the stages are. -/
theorem advance_beyond_columns :
    (¬∀ (ts : List Turn) (c : Call) (n m : Int) (k : Knowledge) (note : Option String), c.IsUnhindered (reached ts) →
      (reached ts).store.entryRow? n = none →
        Ending.of (advance c (.int n) (.int m) k (.ofText? note) (reached ts)).1 = .unknown) ∧
    (¬∀ (ts : List Turn) (c : Call) (n m : Int) (k : Knowledge) (note : Option String) (e : Entry),
      c.IsUnhindered (reached ts) → (reached ts).store.entryRow? n = some e → e.isActive →
        (reached ts).store.stage? m = none →
          Ending.of (advance c (.int n) (.int m) k (.ofText? note) (reached ts)).1 = .barred) ∧
    -- What can be done without a note has nothing else against it.
    ¬∀ (ts : List Turn) (c : Call) (n m : Int) (k : Knowledge) (note : Option String),
      Ending.of (advance c (.int n) (.int m) k .null (reached ts)).1 = .moved →
        Ending.of (advance c (.int n) (.int m) k (.ofText? note) (reached ts)).1 = .moved := by
  have hfree : (reached seated).locks.table = [] := by decide +kernel
  let c : Call := ⟨.text "system", ⟨63908038800000000⟩, .int 1, .null⟩
  have hc : c.IsUnhindered (reached seated) := ⟨by simp [hfree, LockTable.IsFree], rfl, .null, rfl, rfl⟩
  refine ⟨?_, ?_, ?_⟩
  . intro h
    have hend := h seated c (2 ^ 63) 2 ⟨.null, .null⟩ none hc (by decide +kernel)
    revert hend
    decide +kernel
  . intro h
    have hend := h seated c 1 (2 ^ 63) ⟨.null, .null⟩ none ((reached seated).store.entries.head (by decide +kernel))
      hc (by decide +kernel) (by decide +kernel) (by decide +kernel)
    revert hend
    decide +kernel
  . intro h
    have hend := h seated c 1 2 ⟨.null, .null⟩ (some (String.singleton (Text.ofCodePoint 0xd800))) (by decide +kernel)
    revert hend
    decide +kernel

end Service

end StageGate
