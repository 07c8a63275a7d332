import Mathlib.Data.List.Chain
import StageGate.Proofs.Configured
import StageGate.Proofs.Evaluation
import StageGate.Proofs.Gate
import StageGate.Proofs.Lifecycle

/-!
This module contains the paths that entries take through the stages of their pipelines, from the first one on.
No move is made that the pipeline does not allow, whatever stages are added to it in the meantime.
-/

namespace StageGate

/-! ## Ways through a pipeline -/

/-- A stage that an entry was placed in, whether by a move, and whether it was terminal then. -/
structure Placement where
  stage : Stage
  isMove : Bool
  isTerminal : Bool

def Placement.isEnd (x : Placement) : Bool :=
  x.isMove && x.isTerminal

/-- What a pipeline allows from a stage to another one, by their orders. -/
def Pipeline.Allows (p : Pipeline) (m n : Nat) : Prop :=
  n = m + 1 ∨ m + 1 < n ∧ p.allowJumps ∨ n < m ∧ p.allowRegression

/-- The ways through a pipeline: what was passed, with its orders, and what was got to in the end, with its own. -/
inductive Way (p : Pipeline) : List Placement → List Nat → Placement → Nat → Prop where
  | enter {x : Placement} (stands : x.stage.order.Stands 1) (home : x.stage.pipeline = p.id) : Way p [] [] x 1
  | go {path : List Placement} {orders : List Nat} {x y : Placement} {m n : Nat} (way : Way p path orders x m)
      (goes : ¬x.isEnd) (allowed : p.Allows m n) (stands : y.stage.order.Stands n)
      (home : y.stage.pipeline = p.id) (apart : x.stage.id ≠ y.stage.id) : Way p (path ++ [x]) (orders ++ [m]) y n

/-- What the rules of a pipeline make of a path through it. -/
structure Pipeline.Governs (p : Pipeline) (path : List Placement) (orders : List Nat) : Prop where
  places : List.Forall₂ (fun (x : Placement) (n : Nat) => x.stage.order.same (.int n)) path orders
  steady : ¬p.allowJumps → ¬p.allowRegression → orders = List.range' 1 orders.length
  rising : p.allowJumps → ¬p.allowRegression → orders.head? = some 1 ∧ orders.Pairwise (· < ·)
  falling : ¬p.allowJumps → p.allowRegression → orders.IsChain fun m n => n = m + 1 ∨ n < m
  apart : path.IsChain fun x y => x.stage.id ≠ y.stage.id
  home : ∀ x ∈ path, x.stage.pipeline = p.id
  ended : ∀ before x after, path = before ++ x :: after → x.isMove → x.isTerminal → after = []

namespace Way

variable {p : Pipeline} {path : List Placement} {orders : List Nat} {x : Placement} {m : Nat}

theorem stands (h : Way p path orders x m) : x.stage.order.Stands m := by
  cases h <;> assumption

theorem home (h : Way p path orders x m) : x.stage.pipeline = p.id := by
  cases h <;> assumption

theorem places (h : Way p path orders x m) :
    List.Forall₂ (fun (x : Placement) (n : Nat) => x.stage.order.same (.int n)) (path ++ [x]) (orders ++ [m]) := by
  have hlast := Value.same_int_iff.mpr h.stands
  induction h with
  | enter => exact .cons hlast .nil
  | go way _ _ _ _ _ ih => exact List.rel_append (ih (Value.same_int_iff.mpr way.stands)) (.cons hlast .nil)

theorem isChain (h : Way p path orders x m) : (orders ++ [m]).IsChain p.Allows := by
  induction h with
  | enter => exact .singleton 1
  | go _ _ allowed _ _ _ ih =>
    apply ih.append (.singleton _)
    simpa using allowed

theorem apart (h : Way p path orders x m) : (path ++ [x]).IsChain fun x y => x.stage.id ≠ y.stage.id := by
  induction h with
  | enter => exact .singleton _
  | go _ _ _ _ _ apart ih =>
    apply ih.append (.singleton _)
    simpa using apart

theorem homes (h : Way p path orders x m) : ∀ y ∈ path ++ [x], y.stage.pipeline = p.id := by
  induction h with
  | enter _ home => simpa using home
  | go _ _ _ _ home _ ih =>
    intro y hy
    rcases List.mem_append.mp hy with hy | hy
    . exact ih y hy
    . rw [List.mem_singleton.mp hy]
      exact home

/-- Without jumps and regression there is only the next stage, so the order is the number of the stages so far. -/
theorem steady (h : Way p path orders x m) (hjumps : ¬p.allowJumps) (hback : ¬p.allowRegression) :
    m = (orders ++ [m]).length ∧ orders ++ [m] = List.range' 1 m := by
  induction h with
  | enter => exact ⟨rfl, rfl⟩
  | go _ _ allowed _ _ _ ih =>
    obtain ⟨hlength, horders⟩ := ih
    obtain hnext | ⟨-, hon⟩ | ⟨-, hon⟩ := allowed
    . rw [List.length_append, ← hlength, horders, hnext, List.range'_concat, Nat.one_mul, Nat.add_comm 1]
      exact ⟨rfl, rfl⟩
    . exact absurd hon hjumps
    . exact absurd hon hback

theorem rising (h : Way p path orders x m) (hback : ¬p.allowRegression) :
    (orders ++ [m]).head? = some 1 ∧ (orders ++ [m]).Pairwise (· < ·) := by
  induction h with
  | enter => exact ⟨rfl, List.pairwise_singleton _ _⟩
  | @go _ orders _ _ m n _ _ allowed _ _ _ ih =>
    have hlt : m < n := by
      obtain hnext | ⟨hjump, -⟩ | ⟨-, hon⟩ := allowed
      . omega
      . omega
      . exact absurd hon hback
    refine ⟨by rw [List.head?_append, ih.1, Option.some_or], ?_⟩
    rw [List.pairwise_append]
    refine ⟨ih.2, List.pairwise_singleton _ _, ?_⟩
    intro k hk l hl
    rw [List.mem_singleton.mp hl]
    -- What comes before the last one is less than it already.
    rcases List.mem_append.mp hk with hk | hk
    . exact Nat.lt_trans ((List.pairwise_append.mp ih.2).2.2 k hk m (by simp)) hlt
    . rwa [List.mem_singleton.mp hk]

theorem ended (h : Way p path orders x m) {before after : List Placement} {y : Placement}
    (heq : path ++ [x] = before ++ y :: after) (hend : y.isEnd) : after = [] := by
  induction h generalizing after with
  | enter =>
    have hlength := congrArg List.length heq
    simp only [List.nil_append, List.length_append, List.length_cons, List.length_nil] at hlength
    exact List.length_eq_zero_iff.mp (by omega)
  | @go path _ x z _ _ _ goes _ _ _ _ ih =>
    rcases List.eq_nil_or_concat after with rfl | ⟨rest, last, rfl⟩
    . rfl
    -- It is not the last one, so it is one of those that the way came through before, and the last of them.
    rw [List.concat_eq_append, ← List.cons_append, ← List.append_assoc] at heq
    have hpath := (List.append_inj' heq rfl).1
    rw [ih hpath, List.append_singleton_inj] at hpath
    rw [hpath.2] at goes
    exact absurd hend goes

theorem governs (h : Way p path orders x m) : p.Governs (path ++ [x]) (orders ++ [m]) where
  places := h.places
  steady := by
    intro hjumps hback
    obtain ⟨hlength, horders⟩ := h.steady hjumps hback
    rw [← hlength, horders]
  rising := fun _ hback => h.rising hback
  falling := by
    intro hjumps _
    apply h.isChain.imp
    rintro m n (hnext | ⟨-, hon⟩ | ⟨hlt, -⟩)
    . exact .inl hnext
    . exact absurd hon hjumps
    . exact .inr hlt
  apart := h.apart
  home := h.homes
  ended := by
    intro before y after heq hmove hterminal
    exact h.ended heq (by simp [Placement.isEnd, hmove, hterminal])

end Way

/-! ## What a pipeline allows -/

namespace Store.IsCounted

variable {s : Store}

/-- The order of a stage is its number among those of its pipeline. -/
theorem exists_place (h : s.IsCounted) {stage : Stage} (hstage : stage ∈ s.stages) :
    ∃ n, Value.IsPlace n stage.order := by
  apply (h stage.pipeline).exists_isPlace
  exact List.mem_map_of_mem (mem_rowsOf.mpr ⟨hstage, rfl⟩)

theorem first (h : s.IsCounted) {pipeline : Int} {first : Stage}
    (hfirst : (s.stagesOf pipeline).head? = some first) : first.order.Stands 1 := by
  rw [h.stagesOf_eq, List.head?_eq_getElem?] at hfirst
  have horder := h pipeline 0 first.order (by rw [List.getElem?_map, hfirst]; rfl)
  exact horder.stands

end Store.IsCounted

namespace Advancement

variable {s : Store} {p : Pipeline} {current target : Stage} {m n : Nat}

theorem isJump_iff (hcurrent : Value.IsPlace m current.order) (htarget : Value.IsPlace n target.order) :
    IsJump current target ↔ m + 1 < n := by
  unfold IsJump
  rw [hcurrent.stands.isBelow_iff htarget.stands]
  have hle := htarget.le
  generalize current.order = order at hcurrent
  cases hcurrent with
  | int fits =>
    have hnext : (Value.int m).succ = .ok (.int (m + 1)) := rfl
    simp only [hnext, Except.ok.injEq, exists_eq_left', Value.same_int_iff]
    constructor
    . rintro ⟨hlt, hother⟩
      have hne : (n : Int) ≠ m + 1 := fun heq => hother (heq ▸ htarget.stands)
      omega
    . intro hjump
      refine ⟨by omega, fun hstands => ?_⟩
      have := htarget.stands.unique hstands
      omega
  -- No place is behind the last one.
  | top => omega

theorem allows_of_moveRefusal? (hs : s.IsSound) (hk : s.IsConsistent) (hc : s.IsCounted)
    (hcurrent : current ∈ s.stages) (htarget : target ∈ s.stages) (hpipeline : target.pipeline = current.pipeline)
    (hm : current.order.Stands m) (h : moveRefusal? p current target = .ok none) :
    current.id ≠ target.id ∧ ∃ n : Nat, target.order.Stands n ∧ p.Allows m n := by
  obtain ⟨reason?, hreason, hforbids⟩ := exists_moveRefusal? (p := p) hs hk hcurrent htarget hpipeline
  rw [h, Except.ok.injEq] at hreason
  rw [← hreason] at hforbids
  have hfree : ¬Forbids p current target := fun hforbid => by simpa using hforbids.mpr hforbid
  have hapart : current.id ≠ target.id := fun hid => hfree (.same hid.symm)
  obtain ⟨k, hplace⟩ := hc.exists_place hcurrent
  obtain ⟨n, hplace'⟩ := hc.exists_place htarget
  obtain rfl : k = m := by exact_mod_cast hplace.stands.unique hm
  have hne : n ≠ k := by
    rintro rfl
    have hsame := hplace.stands.same_iff.mpr hplace'.stands
    exact hapart (congrArg Stage.id (hk.apart target htarget current hcurrent hpipeline hsame)).symm
  refine ⟨hapart, n, hplace'.stands, ?_⟩
  rcases Nat.lt_or_gt_of_ne hne with hlt | hgt
  . have hback : p.allowRegression := by
      by_contra hoff
      exact hfree (.back ((hplace'.stands.isBelow_iff hplace.stands).mpr (by omega)) (by simpa using hoff))
    exact .inr (.inr ⟨hlt, hback⟩)
  . by_cases hnext : n = k + 1
    . exact .inl hnext
    have hjumps : p.allowJumps := by
      by_contra hoff
      exact hfree (.jump ((isJump_iff hplace hplace').mpr (by omega)) (by simpa using hoff))
    exact .inr (.inl ⟨by omega, hjumps⟩)

end Advancement

/-! ## Entries that stay where they are -/

theorem Entry.Becomes.isActive {e e' : Entry} (h : e.Becomes e') (hactive : e'.isActive) : e.isActive := by
  by_contra hclosed
  rw [h.closed fun hstatus => hclosed (Entry.isActive_iff.mpr hstatus)] at hactive
  exact hclosed hactive

namespace Store

variable {s s' : Store} {e e' : Entry} {f : Effect}

/-- Whether an entry was there before, and in the same stage. -/
def Stays (s : Store) (e' : Entry) : Prop :=
  ∃ e ∈ s.entries, e.Becomes e' ∧ e'.stage = e.stage

/-- Whether an entry was not there before, and is in the first stage of its pipeline. -/
structure Opens (s : Store) (e : Entry) : Prop where
  absent : e.id ∉ s.entries.map (·.id)
  first : ∃ first, (s.stagesOf e.pipeline).head? = some first ∧ e.stage = first.id

theorem stays_of_mem (he : e ∈ s.entries) : s.Stays e :=
  ⟨e, he, .refl e, rfl⟩

theorem stays_putEntry {new : Entry} (he : e ∈ s.entries) (hbecomes : e.Becomes new) (hstage : new.stage = e.stage)
    (he' : e' ∈ (s.putEntry new).entries) : s.Stays e' := by
  rcases mem_putEntry he' with rfl | ⟨hmem, -⟩
  . exact ⟨e, he, hbecomes, hstage⟩
  . exact stays_of_mem hmem

theorem opens_of_opening {c : Call} {first : Stage} (h : Opening c s e first) : s.Opens e where
  absent := by
    intro hid
    have hlt := lt_nextId hid
    rw [h.id] at hlt
    exact Int.lt_irrefl _ hlt
  first := ⟨first, h.head, h.stage⟩

theorem Step.stays_or_opens (h : s.Step f s') (hf : f ≠ .move) (he' : e' ∈ s'.entries) :
    s.Stays e' ∨ f ≠ .quiet ∧ s.Opens e' := by
  cases h with
  | aside _ entries _ =>
    rw [entries] at he'
    exact .inl (stays_of_mem he')
  | addStage => exact .inl (stays_of_mem he')
  | note => exact .inl (stays_of_mem he')
  | refresh b held => exact .inl (stays_putEntry held.mem (.remember held.isActive b) rfl he')
  | enroll opening =>
    rcases List.mem_append.mp he' with he' | he'
    . exact .inl (stays_of_mem he')
    . rw [List.mem_singleton.mp he']
      exact .inr ⟨by simp, opens_of_opening opening⟩
  | move => exact absurd rfl hf
  | archive held => exact .inl (stays_putEntry held.mem (.archive held.isActive _ _) rfl he')
  | @transfer _ c e opened _ first _ _ kept held _ _ _ _ _ opening =>
    rcases List.mem_append.mp he' with he' | he'
    . exact .inl (stays_putEntry held.mem (.archive held.isActive _ _) rfl he')
    . rw [List.mem_singleton.mp he']
      have hopens := opens_of_opening opening
      refine .inr ⟨by simp, ?_, hopens.first⟩
      rw [← putEntry_ids (s := s) (e := e.archive kept c.now)]
      exact hopens.absent

theorem Steps.stays_or_opens {n : Nat} (hs : s.IsSound) (h : s.Steps f n s') (hf : f ≠ .move)
    (he' : e' ∈ s'.entries) : s.Stays e' ∨ f ≠ .quiet ∧ s.Opens e' := by
  induction h generalizing e' with
  | refl => exact .inl (stays_of_mem he')
  | tail steps step ih =>
    rcases step.stays_or_opens hf he' with ⟨e, he, hbecomes, hstage⟩ | ⟨hquiet, hopens⟩
    . rcases ih he with ⟨x, hx, hx', hstage'⟩ | ⟨hquiet, hopens⟩
      . exact .inl ⟨x, hx, hx'.trans hbecomes, hstage.trans hstage'⟩
      . refine .inr ⟨hquiet, ?_, ?_⟩
        . rw [hbecomes.id]
          exact hopens.absent
        . rw [hbecomes.pipeline, hstage]
          exact hopens.first
    . refine .inr ⟨hquiet, ?_, ?_⟩
      . intro hmem
        obtain ⟨x, hx, hid⟩ := List.mem_map.mp hmem
        obtain ⟨x', hx', hbecomes⟩ := steps.continues hs x hx
        exact hopens.absent (List.mem_map.mpr ⟨x', hx', hbecomes.id.trans hid⟩)
      . obtain ⟨first, hfirst, hstage⟩ := hopens.first
        unfold stagesOf at hfirst ⊢
        rw [steps.stages_eq hquiet] at hfirst
        exact ⟨first, hfirst, hstage⟩

end Store

/-! ## Entries that move -/

namespace Advancement

variable {c : Call} {e : Entry} {target note : Value} {k : Knowledge} {m : Move} {s s' : Store}

theorem of_move {current stage : Stage} {verdict : Verdict} {sla : Health}
    (h : move c e current stage verdict sla note s = .ok (m, s')) :
    m.ok ∧ ∃ new r, placed c c.now e stage note s = .ok new ∧ s' = (s.putEntry new).addAudit r := by
  rw [move_universal] at h
  simp only [Transaction.bind_eq_ok, Transaction.reading_eq_ok, Transaction.lift_eq_ok,
    Transaction.putEntry_eq_ok, Transaction.record_eq_ok, Transaction.pure_eq_ok] at h
  obtain ⟨new, _, ⟨hplaced, rfl⟩, isForward, _, ⟨-, rfl⟩, _, _, ⟨-, rfl⟩, _, _, ⟨actor, -, rfl⟩, view, _, ⟨-, rfl⟩,
    rfl, rfl⟩ := h
  refine ⟨?_, new, _, hplaced, rfl⟩
  unfold Move.ok
  split
  . rfl
  . split <;> rfl

theorem of_advancingHeld (h : advancingHeld c e target k note s = .ok (m, s')) :
    ¬m.ok ∧ s' = s ∨ m.ok ∧ e.isActive ∧ ∃ stage new r, resolveTarget e target s = .ok stage ∧
      placed c c.now e stage note s = .ok new ∧ s' = (s.putEntry new).addAudit r := by
  simp only [advancingHeld, Transaction.bind_eq_ok, Transaction.demand_eq_ok, Transaction.reading_eq_ok] at h
  obtain ⟨_, _, ⟨hactive, rfl⟩, stage, _, ⟨hstage, rfl⟩, current, _, ⟨-, rfl⟩, ⟨verdict, sla⟩, _, ⟨-, rfl⟩, h⟩ := h
  dsimp only at h
  split at h
  . obtain ⟨hok, new, r, hplaced, hs'⟩ := of_move h
    exact .inr ⟨hok, hactive, stage, new, r, hstage, hplaced, hs'⟩
  . simp only [Transaction.bind_eq_ok, Transaction.reading_eq_ok, Transaction.pure_eq_ok] at h
    obtain ⟨view, _, ⟨-, rfl⟩, rfl, rfl⟩ := h
    exact .inl ⟨by simp [Move.ok], rfl⟩

theorem isActive_of_placed {stage : Stage} {new : Entry} (h : placed c c.now e stage note s = .ok new)
    (hactive : new.isActive) : ¬s.isTerminal stage := by
  rw [placed_universal] at h
  obtain ⟨kept, -, h⟩ := bind_eq_ok.mp h
  intro hterminal
  rw [if_pos hterminal] at h
  cases h
  simp [Entry.isActive, Entry.complete] at hactive

end Advancement

/-! ## Turns -/

namespace Service

/-- Whether a turn is a successful move of an entry. -/
def moves (s : Service) (t : Turn) (id : Int) : Bool :=
  match t.command with
  | .advance caller entry target k note =>
    (s.store.entry entry).toOption.any (·.id = id) &&
      (Advancement.advance (Command.run.call t.env caller) entry target k note s).1.toOption.any (·.ok)
  | _ => false

/-- Where a turn places an entry, if it creates or moves it. -/
def placement? (s : Service) (t : Turn) (id : Int) : Option Placement :=
  let store := (s.after t).store
  let isNew := (s.store.entryRow? id).isNone
  if isNew || s.moves t id then do
    let e ← store.entryRow? id
    let stage ← store.stage? e.stage
    return ⟨stage, !isNew, store.isTerminal stage⟩
  else
    none

/-- Where turns place an entry, in their order. -/
def path (s : Service) (id : Int) : List Turn → List Placement
  | [] => []
  | t :: ts => (s.placement? t id).toList ++ (s.after t).path id ts

theorem path_concat (s : Service) (id : Int) (ts : List Turn) (t : Turn) :
    s.path id (ts ++ [t]) = s.path id ts ++ ((s.run ts).placement? t id).toList := by
  induction ts generalizing s with
  | nil => simp [path, run]
  | cons t' ts ih =>
    have hrun : s.run (t' :: ts) = (s.after t').run ts := rfl
    rw [List.cons_append, path, path, ih, hrun, List.append_assoc]

/-- What a turn has done with an entry that is there after it. -/
inductive Fate (s : Service) (t : Turn) (e : Entry) : Prop where
  | opens (opens : s.store.Opens e)
  | stays (stays : s.store.Stays e) (still : s.moves t e.id = false)
  | moves {c : Call} {x : Entry} {stage : Stage} {target note : Value} (mem : x ∈ s.store.entries)
      (moves : s.moves t e.id) (isActive : x.isActive)
      (resolved : Advancement.resolveTarget x target s.store = .ok stage)
      (placed : Advancement.placed c c.now x stage note s.store = .ok e)
      (stages : (s.after t).store.stages = s.store.stages)

variable {s : Service} {t : Turn} {e : Entry}

section

variable {caller : Caller} {entry target note : Value} {k : Advancement.Knowledge}

theorem answer_of_advance (ht : t.command = .advance caller entry target k note)
    {r : Except Fault Advancement.Move} {s' : Service}
    (hdone : Advancement.advance (Command.run.call t.env caller) entry target k note s = (r, s')) :
    s.answer t = r.map Advancement.Move.toValue ∧ s.after t = s' := by
  have hrun : t.command.run t.env s =
      (do return (← Advancement.advance (Command.run.call t.env caller) entry target k note).toValue : Operation Value)
        s := by
    rw [ht]
    rfl
  unfold answer after
  rw [hrun]
  cases r with
  | error f =>
    rw [Operation.bind_of_error hdone]
    exact ⟨rfl, rfl⟩
  | ok m =>
    rw [Operation.bind_of_ok hdone]
    exact ⟨rfl, rfl⟩

theorem moves_of_advance {x : Entry} (ht : t.command = .advance caller entry target k note)
    (hx : s.store.entry entry = .ok x) {m : Advancement.Move} {s' : Service}
    (hdone : Advancement.advance (Command.run.call t.env caller) entry target k note s = (.ok m, s')) (id : Int) :
    s.moves t id = (decide (x.id = id) && m.ok) := by
  unfold moves
  rw [ht]
  simp [hx, hdone, Except.toOption]

/-- A move that is not answered leaves the store as it was, and so does one that the criteria are against. -/
theorem fate_of_advance (hs : s.store.IsSound) (htrusty : s.IsTrusty)
    (ht : t.command = .advance caller entry target k note) (he : e ∈ (s.after t).store.entries) : s.Fate t e := by
  have hstages : (s.after t).store.stages = s.store.stages := by
    obtain ⟨n, hsteps, -⟩ := exists_steps hs t
    apply hsteps.stages_eq
    rw [ht]
    simp [Command.effect]
  rcases hdone : Advancement.advance (Command.run.call t.env caller) entry target k note s with ⟨r, s'⟩
  obtain ⟨hanswer, hafter⟩ := answer_of_advance ht hdone
  cases r with
  | error f =>
    rw [(store_of_fault hs hanswer).1] at he
    refine .stays (Store.stays_of_mem he) ?_
    unfold moves
    rw [ht]
    simp [hdone, Except.toOption]
  | ok m =>
    have hadvancing := Advancement.advancing_of_advance htrusty hdone
    obtain ⟨x, _, hread, hheld⟩ := Transaction.bind_eq_ok.mp hadvancing
    obtain ⟨hx, rfl⟩ := Transaction.reading_eq_ok.mp hread
    have hmoves := moves_of_advance ht hx hdone
    rw [hafter] at he
    rcases Advancement.of_advancingHeld hheld with
      ⟨hblocked, hsame⟩ | ⟨hok, hactive, stage, new, r, hstage, hplaced, hput⟩
    . rw [hsame] at he
      exact .stays (Store.stays_of_mem he) (by simp [hmoves, hblocked])
    . rw [hput] at he
      have hid := (Advancement.isPlaced_of_placed hplaced).id
      rcases Store.mem_putEntry he with rfl | ⟨hmem, hother⟩
      . exact .moves (Store.mem_of_entry hx) (by simp [hmoves, hok, hid]) hactive hstage hplaced hstages
      . exact .stays (Store.stays_of_mem hmem) (by simp [hmoves, ← hid, hother.symm])

end

theorem fate_of_after (hs : s.store.IsSound) (htrusty : s.IsTrusty) (he : e ∈ (s.after t).store.entries) :
    s.Fate t e := by
  by_cases hmove : t.command.effect = .move
  . obtain ⟨caller, entry, target, k, note, ht⟩ : ∃ caller entry target k note,
        t.command = .advance caller entry target k note := by
      cases hcommand : t.command <;> simp [hcommand, Command.effect] at hmove
      exact ⟨_, _, _, _, _, rfl⟩
    exact fate_of_advance hs htrusty ht he
  . obtain ⟨n, hsteps, -⟩ := exists_steps hs t
    have hstill : s.moves t e.id = false := by
      unfold moves
      split
      . next hcommand => exact absurd (by rw [hcommand]; rfl) hmove
      . rfl
    rcases hsteps.stays_or_opens hs hmove he with hstays | ⟨-, hopens⟩
    . exact .stays hstays hstill
    . exact .opens hopens

end Service

/-! ## Rows that stay -/

namespace Store

variable {s s' : Store}

theorem id_of_pipeline? {id : Int} {p : Pipeline} (h : s.pipeline? id = some p) : p.id = id := by
  simpa using List.find?_some h

theorem closed_pipeline? (id : Int) (p : Pipeline) (tables : List Table) : Closed (·.pipeline? id = some p) tables where
  entries := fun _ _ _ h => h
  leads := fun _ _ _ h => h
  pipelines := by
    intro _ s new h
    unfold pipeline? at h ⊢
    rw [List.find?_append, h, Option.some_or]
  stages := fun _ _ _ h => h
  added := fun _ _ _ _ _ h => h
  updated := fun _ _ _ _ _ _ h => h
  flags := fun _ _ _ h => h

theorem stage?_of_subset {id : Int} {stage : Stage} (hs : s.IsSound) (hs' : s'.IsSound) (hstages : s.stages ⊆ s'.stages)
    (h : s.stage? id = some stage) : s'.stage? id = some stage := by
  obtain ⟨hmem, hid⟩ := hs.stage?_eq_some.mp h
  exact hs'.stage?_eq_some.mpr ⟨hstages hmem, hid⟩

theorem isSome_entryRow? {id : Int} : (s.entryRow? id).isSome ↔ id ∈ s.entries.map (·.id) := by
  simp [entryRow?]

theorem entryRow?_eq_none {id : Int} : s.entryRow? id = none ↔ id ∉ s.entries.map (·.id) := by
  rw [← isSome_entryRow?, Option.not_isSome_iff_eq_none]

/-- The way that an entry has gone, to the stage that it is in. It goes on unless the entry is closed. -/
def HasGone (s : Store) (e : Entry) (path : List Placement) : Prop :=
  ∃ p before orders x m, s.pipeline? e.pipeline = some p ∧ path = before ++ [x] ∧ Way p before orders x m ∧
    s.stage? e.stage = some x.stage ∧ (e.isActive → ¬x.isEnd)

end Store

namespace Service

variable {s : Service} {t : Turn} {e : Entry}

/-! ## Steps of a way -/

theorem placement?_eq_some (hs' : (s.after t).store.IsSound) (he : e ∈ (s.after t).store.entries) {stage : Stage}
    (hstage : (s.after t).store.stage? e.stage = some stage)
    (h : (s.store.entryRow? e.id).isNone ∨ s.moves t e.id) :
    s.placement? t e.id = some ⟨stage, (s.store.entryRow? e.id).isSome, (s.after t).store.isTerminal stage⟩ := by
  have hrow : (s.after t).store.entryRow? e.id = some e := (Store.find?_id_eq_some hs'.entryIds).mpr ⟨he, rfl⟩
  unfold placement?
  dsimp only
  rw [if_pos (by simpa using h), hrow]
  simp [hstage]

section

variable (hs : s.store.IsSound) (hs' : (s.after t).store.IsSound)

include hs

theorem pipeline?_after {id : Int} {p : Pipeline} (h : s.store.pipeline? id = some p) :
    (s.after t).store.pipeline? id = some p :=
  preserved_of_after hs t (Store.closed_pipeline? id p _) h

include hs'

theorem stage?_after {id : Int} {stage : Stage} (h : s.store.stage? id = some stage) :
    (s.after t).store.stage? id = some stage := by
  obtain ⟨n, hsteps, -⟩ := exists_steps hs t
  exact Store.stage?_of_subset hs hs' hsteps.stages_subset h

theorem hasGone_of_opens (hk : s.store.IsConsistent) (hc : s.store.IsCounted) (he : e ∈ (s.after t).store.entries)
    (h : s.store.Opens e) : (s.after t).store.HasGone e (s.placement? t e.id).toList := by
  obtain ⟨first, hhead, hstage⟩ := h.first
  obtain ⟨hfirst, hhome⟩ := Store.mem_of_head?_stagesOf hhead
  obtain ⟨p, hp⟩ := hk.exists_pipeline hfirst
  rw [hhome] at hp
  have hhere : (s.after t).store.stage? e.stage = some first :=
    stage?_after hs hs' (hs.stage?_eq_some.mpr ⟨hfirst, hstage.symm⟩)
  have hnone := Store.entryRow?_eq_none.mpr h.absent
  rw [placement?_eq_some hs' he hhere (.inl (by rw [hnone]; rfl)), hnone]
  have hway : Way p [] [] ⟨first, false, (s.after t).store.isTerminal first⟩ 1 :=
    .enter (hc.first hhead) (hhome.trans (Store.id_of_pipeline? hp).symm)
  exact ⟨p, [], [], _, 1, pipeline?_after hs hp, rfl, hway, hhere, fun _ => by simp [Placement.isEnd]⟩

theorem hasGone_of_stays {path : List Placement} {x : Entry} (h : s.store.HasGone x path) (hx : x ∈ s.store.entries)
    (hbecomes : x.Becomes e) (hstage : e.stage = x.stage) (hstill : s.moves t e.id = false) :
    (s.after t).store.HasGone e (path ++ (s.placement? t e.id).toList) := by
  obtain ⟨p, before, orders, y, m, hp, hpath, hway, hhere, hgoes⟩ := h
  have hsome : (s.store.entryRow? e.id).isSome :=
    Store.isSome_entryRow?.mpr (List.mem_map.mpr ⟨x, hx, hbecomes.id.symm⟩)
  have hnone : s.placement? t e.id = none := by
    unfold placement?
    dsimp only
    rw [if_neg (by simpa [hstill, Option.isSome_iff_ne_none] using hsome)]
  rw [hnone, Option.toList_none, List.append_nil]
  refine ⟨p, before, orders, y, m, ?_, hpath, hway, ?_, fun hactive => hgoes (hbecomes.isActive hactive)⟩
  . rw [hbecomes.pipeline]
    exact pipeline?_after hs hp
  . rw [hstage]
    exact stage?_after hs hs' hhere

theorem hasGone_of_moves (hk : s.store.IsConsistent) (hc : s.store.IsCounted) {path : List Placement} {c : Call}
    {x : Entry} {stage : Stage} {target note : Value} (h : s.store.HasGone x path) (hx : x ∈ s.store.entries)
    (he : e ∈ (s.after t).store.entries) (hmoves : s.moves t e.id) (hactive : x.isActive)
    (hresolved : Advancement.resolveTarget x target s.store = .ok stage)
    (hplaced : Advancement.placed c c.now x stage note s.store = .ok e)
    (hstages : (s.after t).store.stages = s.store.stages) :
    (s.after t).store.HasGone e (path ++ (s.placement? t e.id).toList) := by
  obtain ⟨p, before, orders, y, m, hp, rfl, hway, hhere, hgoes⟩ := h
  obtain ⟨current, p', hcurrent, hp', -, hpipeline, hreason, -⟩ := Advancement.of_resolveTarget hresolved
  rw [hp, Option.some.injEq] at hp'
  rw [hhere, Option.some.injEq] at hcurrent
  subst hp' hcurrent
  have hid := Store.id_of_pipeline? hp
  have hplace := Advancement.isPlaced_of_placed hplaced
  have hstage := (Advancement.isTarget_of_resolveTarget hresolved).mem
  obtain ⟨hapart, n, hstands, hallows⟩ := Advancement.allows_of_moveRefusal? hs hk hc (hs.stage?_eq_some.mp hhere).1
    hstage (by rw [hpipeline, hway.home, hid]) hway.stands hreason
  have hhere' : (s.after t).store.stage? e.stage = some stage :=
    stage?_after hs hs' (hs.stage?_eq_some.mpr ⟨hstage, hplace.stage.symm⟩)
  have hthere : (s.store.entryRow? e.id).isSome :=
    Store.isSome_entryRow?.mpr (List.mem_map.mpr ⟨x, hx, hplace.id.symm⟩)
  rw [placement?_eq_some hs' he hhere' (.inr hmoves), hthere]
  refine ⟨p, before ++ [y], orders ++ [m], _, n, ?_, rfl, ?_, hhere', ?_⟩
  . rw [hplace.pipeline]
    exact pipeline?_after hs hp
  . exact .go hway (hgoes hactive) hallows hstands (hpipeline.trans hid.symm) hapart
  . intro hopen
    have hterminal : (s.after t).store.isTerminal stage = s.store.isTerminal stage := by
      unfold Store.isTerminal Store.stagesOf
      rw [hstages]
    simp [Placement.isEnd, hterminal, Advancement.isActive_of_placed hplaced hopen]

end

structure HasPaths (s : Service) (path : Int → List Placement) : Prop where
  gone : ∀ e ∈ s.store.entries, s.store.HasGone e (path e.id)
  absent : ∀ id ∉ s.store.entries.map (·.id), path id = []

theorem HasPaths.after {path : Int → List Placement} (hs : s.store.IsSound) (htrusty : s.IsTrusty)
    (hk : s.store.IsConsistent) (hc : s.store.IsCounted) (hs' : (s.after t).store.IsSound) (h : s.HasPaths path) :
    (s.after t).HasPaths fun id => path id ++ (s.placement? t id).toList where
  gone := by
    intro e he
    cases fate_of_after hs htrusty he with
    | opens hopens =>
      rw [h.absent e.id hopens.absent, List.nil_append]
      exact hasGone_of_opens hs hs' hk hc he hopens
    | stays hstays hstill =>
      obtain ⟨x, hx, hbecomes, hstage⟩ := hstays
      have hgone := h.gone x hx
      rw [← hbecomes.id] at hgone
      exact hasGone_of_stays hs hs' hgone hx hbecomes hstage hstill
    | moves hmem hmoves hactive hresolved hplaced hstages =>
      have hgone := h.gone _ hmem
      rw [← (Advancement.isPlaced_of_placed hplaced).id] at hgone
      exact hasGone_of_moves hs hs' hk hc hgone hmem he hmoves hactive hresolved hplaced hstages
  absent := by
    intro id hid
    obtain ⟨n, hsteps, -⟩ := exists_steps hs t
    have hbefore : id ∉ s.store.entries.map (·.id) := by
      intro hmem
      obtain ⟨x, hx, rfl⟩ := List.mem_map.mp hmem
      obtain ⟨x', hx', hbecomes⟩ := hsteps.continues hs x hx
      exact hid (List.mem_map.mpr ⟨x', hx', hbecomes.id⟩)
    have hnone : s.placement? t id = none := by
      unfold placement?
      dsimp only
      rw [Store.entryRow?_eq_none.mpr hid]
      exact ite_self none
    rw [h.absent id hbefore, hnone]
    rfl

theorem hasPaths_reached (ts : List Turn) : (reached ts).HasPaths fun id => empty.path id ts := by
  induction ts using List.reverseRecOn with
  | nil =>
    constructor
    . simp [reached, run, empty, Store.empty]
    . exact fun _ _ => rfl
  | append_singleton ts t ih =>
    have hsound : ((reached ts).after t).store.IsSound := reached_concat ts t ▸ isSound_reached (ts ++ [t])
    simp only [reached_concat, path_concat]
    exact ih.after (isSound_reached ts) (isTrusty_reached ts) (isConsistent_reached ts) (isCounted_reached ts) hsound

/--
The stages that an entry is placed in, the first one and each that it moves to, are as its pipeline allows. They
are one after the other if there are no jumps and no regression, they rise if there is no regression, and if there
are no jumps, each one is the next or comes before. Nothing follows a move to a stage that was terminal then.
-/
theorem reached_paths (ts : List Turn) : ∀ e ∈ (reached ts).store.entries,
    ∃ p orders, (reached ts).store.pipeline? e.pipeline = some p ∧ p.Governs (empty.path e.id ts) orders ∧
      ∃ x, (empty.path e.id ts).getLast? = some x ∧ (reached ts).store.stage? e.stage = some x.stage := by
  intro e he
  obtain ⟨p, before, orders, x, m, hp, hpath, hway, hhere, -⟩ := (hasPaths_reached ts).gone e he
  rw [hpath]
  exact ⟨p, orders ++ [m], hp, hway.governs, x, List.getLast?_concat, hhere⟩

def extension : List Turn :=
  -- A lead in the first of two stages, and a third one that is added before the lead gets to the end.
  let caller : Caller := ⟨.text "system", none, .null⟩
  let stages : Value := .list [.object [("name", .text "New")], .object [("name", .text "Won")]]
  let advance (stage : Int) : Command := .advance caller (.int 1) (.int stage) ⟨.null, .null⟩ .null
  Turn.allIn ⟨⟨63908038800000000⟩, .int 1, .int 0⟩
    [.createLead [("name", .text "Ada")],
      .createPipeline (.text "system") (.object [("name", .text "Sales"), ("stages", stages)]),
      .enroll caller (.int 1) (.int 1) .null,
      .addStage (.text "system") (.int 1) (.object [("name", .text "Paid")]),
      advance 3, advance 2, advance 3, advance 2] (by decide)

theorem reached_paths_extension : ∃ e ∈ (reached extension).store.entries, ∃ p orders,
    (reached extension).store.pipeline? e.pipeline = some p ∧ p.Governs (empty.path e.id extension) orders ∧
      orders = [1, 2, 3] := by
  obtain ⟨e, he, hid, hhome⟩ : ∃ e ∈ (reached extension).store.entries, e.id = 1 ∧ e.pipeline = 1 :=
    ⟨(reached extension).store.entries.head (by decide +kernel), by decide +kernel, by decide +kernel,
      by decide +kernel⟩
  obtain ⟨p, orders, hp, hgoverns, -⟩ := reached_paths extension e he
  refine ⟨e, he, p, orders, hp, hgoverns, ?_⟩
  have hflags : ((reached extension).store.pipeline? 1).all fun p => !p.allowJumps && !p.allowRegression := by
    decide +kernel
  have hlength : (empty.path 1 extension).length = 3 := by decide +kernel
  rw [hhome] at hp
  rw [hid] at hgoverns
  rw [hp] at hflags
  have hflags : p.allowJumps = false ∧ p.allowRegression = false := by simpa using hflags
  rw [hgoverns.steady (by simp [hflags.1]) (by simp [hflags.2]), ← hgoverns.places.length_eq, hlength]
  rfl

end Service

end StageGate
