import Mathlib.Data.List.Induction
import StageGate.Proofs.Evaluation

/-!
This module contains that flags reach the gate. What was set last about a criterion for a lead is what every
evaluation of an entry of this lead says about it, in every store that is reached, and to set a flag changes no
evaluation in anything else.
-/

namespace StageGate

open Transaction Operation Advancement Flagging

/-! ## What was set last -/

/-- A flag of a criterion that was set for a lead. -/
structure Setting where
  flag : Flag
  lead : Int
  criterion : Int
  value : Bool

def Setting.isOf (x : Setting) (flag : Flag) (lead criterion : Int) : Bool :=
  x.flag = flag && x.lead = lead && x.criterion = criterion

/-- What was set last of a flag; it is false before it is set. -/
def lastSet (settings : List Setting) (flag : Flag) (lead criterion : Int) : Bool :=
  ((settings.filter (·.isOf flag lead criterion)).getLast?.map (·.value)).getD false

namespace Service

/-- What a turn sets, if it answers. -/
def setting? (s : Service) (t : Turn) : Option Setting :=
  match t.command with
  | .setFlag _ flag lead criterion value _ =>
    match s.store.lead lead, s.store.criterion criterion, s.answer t with
    | .ok l, .ok c, .ok _ => some ⟨flag, l.id, c.id, value⟩
    | _, _, _ => none
  | _ => none

/-- What turns set, in their order. -/
def settings (s : Service) : List Turn → List Setting
  | [] => []
  | t :: ts => (s.setting? t).toList ++ (s.after t).settings ts

theorem settings_concat (s : Service) (ts : List Turn) (t : Turn) :
    s.settings (ts ++ [t]) = s.settings ts ++ ((s.run ts).setting? t).toList := by
  induction ts generalizing s with
  | nil => simp [settings, run]
  | cons t' ts ih =>
    have hrun : s.run (t' :: ts) = (s.after t').run ts := rfl
    rw [List.cons_append, settings, settings, ih, hrun, List.append_assoc]

end Service

theorem lastSet_concat (settings : List Setting) (x : Setting) (flag : Flag) (lead criterion : Int) :
    lastSet (settings ++ [x]) flag lead criterion =
      if x.isOf flag lead criterion then x.value else lastSet settings flag lead criterion := by
  unfold lastSet
  rw [List.filter_append, List.filter_cons, List.filter_nil]
  split
  . rw [List.getLast?_concat]
    rfl
  . rw [List.append_nil]

/-! ## Turns that set flags -/

theorem Store.closed_flags (flags : List FlagRow) {tables : List Table} (h : .flags ∉ tables) :
    Closed (·.flags = flags) tables where
  entries := fun _ _ _ h => h
  leads := fun _ _ _ h => h
  pipelines := fun _ _ _ h => h
  stages := fun _ _ _ h => h
  added := fun _ _ _ _ _ h => h
  updated := fun _ _ _ _ _ _ h => h
  flags := fun hflags => absurd hflags h

namespace Service

section

variable {s : Service} {env : Environment} {actor lead criterion notes : Value} {flag : Flag} {value : Bool}

theorem run_setFlag : (Command.setFlag actor flag lead criterion value notes).run env s =
    match setFlag ⟨actor, env.now⟩ lead criterion flag value notes s.store with
    | .ok (r, store) => (.ok r.toValue, { s with store })
    | .error f => (.error f, s) := by
  unfold Command.run Command.runIn
  dsimp only
  rw [Administration.setFlag_eq, commit_bind_eq]
  cases setFlag ⟨actor, env.now⟩ lead criterion flag value notes s.store <;> rfl

theorem answer_of_mismatch {c : Criterion} (hc : s.store.criterion criterion = .ok c) (hkind : c.kind ≠ flag.kind.name) :
    ∃ f, ((Command.setFlag actor flag lead criterion value notes).run env s).1 = .error f := by
  rw [run_setFlag]
  cases hset : setFlag ⟨actor, env.now⟩ lead criterion flag value notes s.store with
  | error f => exact ⟨f, rfl⟩
  | ok r =>
    obtain ⟨l, c', _, _, -, hc', hkind', -⟩ := of_setFlag hset
    rw [hc, Except.ok.injEq] at hc'
    rw [hc'] at hkind
    exact absurd hkind' hkind

theorem after_of_failed {f : Fault}
    (h : ((Command.setFlag actor flag lead criterion value notes).run env s).1 = .error f) :
    ((Command.setFlag actor flag lead criterion value notes).run env s).2 = s := by
  rw [run_setFlag] at h ⊢
  cases hset : setFlag ⟨actor, env.now⟩ lead criterion flag value notes s.store with
  | error f => rfl
  | ok r =>
    rw [hset] at h
    cases h

end

variable {s : Service}

/-- What is set by a turn is all that the turn changes, besides the audit trail. -/
theorem of_setting? {t : Turn} {x : Setting} (h : s.setting? t = some x) : ∃ c ∈ s.store.criteria,
    c.id = x.criterion ∧ c.kind = x.flag.kind.name ∧ ∃ flags audit,
      s.store.Sets x.flag x.value x.lead x.criterion flags ∧ s.after t = { s with store := { s.store with flags, audit } } := by
  unfold setting? at h
  split at h
  . next actor flag lead criterion value notes hcommand =>
    split at h
    . next l c v hl hc hanswer =>
      cases h
      unfold answer at hanswer
      unfold after
      rw [hcommand, run_setFlag] at hanswer ⊢
      cases hset : setFlag ⟨actor, t.env.now⟩ lead criterion flag value notes s.store with
      | error f =>
        rw [hset] at hanswer
        cases hanswer
      | ok r =>
        obtain ⟨row, store⟩ := r
        obtain ⟨l', c', flags, audit, hl', hc', hkind, hsets, rfl⟩ := of_setFlag hset
        rw [hl, Except.ok.injEq] at hl'
        rw [hc, Except.ok.injEq] at hc'
        subst hl' hc'
        exact ⟨c, Store.mem_of_criterion hc, rfl, hkind, flags, audit, hsets, rfl⟩
    . cases h
  . cases h

theorem flags_of_setting?_eq_none (hs : s.store.IsSound) {t : Turn} (h : s.setting? t = none) :
    (s.after t).store.flags = s.store.flags := by
  by_cases hmem : .flags ∈ t.command.tables
  swap
  . exact preserved_of_after hs t (Store.closed_flags s.store.flags hmem) rfl
  unfold setting? at h
  unfold after
  cases hcommand : t.command with
  | setFlag actor flag lead criterion value notes =>
    rw [hcommand] at h
    rw [run_setFlag]
    cases hset : setFlag ⟨actor, t.env.now⟩ lead criterion flag value notes s.store with
    | error f => rfl
    | ok r =>
      obtain ⟨l, c, _, _, hl, hc, -⟩ := of_setFlag hset
      have hanswer : s.answer t = .ok r.1.toValue := by rw [answer, hcommand, run_setFlag, hset]
      simp only [hl, hc, hanswer] at h
      cases h
  | _ => simp [hcommand, Command.tables] at hmem

/-- What holds of the flags in a store that is reached by turns. -/
structure IsSettled (s : Service) (settings : List Setting) : Prop where
  rows : s.store.HasSingleFlags
  rising : s.store.HasRisingCriteria
  last : ∀ (flag : Flag) lead criterion,
    flag.get (s.store.flagsOf lead criterion) = lastSet settings flag lead criterion

theorem isSettled_empty : empty.IsSettled [] where
  rows := Store.hasSingleFlags_empty
  rising := by simp [Store.HasRisingCriteria, empty, Store.empty]
  last := by
    intro flag lead criterion
    have hnone : empty.store.flagsOf lead criterion = .none := Store.flagsOf_of_absent (by simp [empty, Store.empty])
    rw [hnone, Flag.get_none]
    rfl

theorem IsSettled.after {settings : List Setting} (hs : s.store.IsSound) (h : s.IsSettled settings) (t : Turn) :
    (s.after t).IsSettled (settings ++ (s.setting? t).toList) := by
  have hrising := preserved_of_after hs t (Store.closed_hasRisingCriteria _) h.rising
  cases hset : s.setting? t with
  | none =>
    have hflags := flags_of_setting?_eq_none hs hset
    refine ⟨h.rows.congr hflags, hrising, ?_⟩
    intro flag lead criterion
    rw [Store.flagsOf_congr hflags, Option.toList_none, List.append_nil]
    exact h.last flag lead criterion
  | some x =>
    obtain ⟨c, -, -, -, flags, audit, hsets, hafter⟩ := of_setting? hset
    rw [hafter] at hrising ⊢
    refine ⟨h.rows.sets hsets, hrising, ?_⟩
    intro flag lead criterion
    rw [h.rows.isPut hsets, Option.toList_some, lastSet_concat, ← h.last flag lead criterion]
    by_cases hkey : lead = x.lead ∧ criterion = x.criterion
    . rw [if_pos hkey, Flag.get_put, hkey.1, hkey.2]
      simp [Setting.isOf, eq_comm]
    . rw [if_neg hkey, if_neg]
      simp only [Setting.isOf, Bool.and_eq_true, decide_eq_true_eq]
      exact fun hof => hkey ⟨hof.1.2.symm, hof.2.symm⟩

theorem isSettled_reached (ts : List Turn) : (reached ts).IsSettled (empty.settings ts) := by
  induction ts using List.reverseRecOn with
  | nil => exact isSettled_empty
  | append_singleton ts t ih =>
    rw [reached_concat, settings_concat]
    exact ih.after (isSound_reached ts) t

/-! ## Evaluations -/

/-- What the evaluations in a store say about the criteria that are settled by hand, after what was set so far. -/
structure FlagLaw (s : Service) (settings : List Setting) : Prop where
  -- The evaluation that a move answers is the one that is shown in advance.
  shown : ∀ c entry target k note m, (advance c entry target k note s).1 = .ok m →
    (preview c entry k s).1 = .ok m.verdict
  settled : ∀ c entry k e v, s.store.entry entry = .ok e → (preview c entry k s).1 = .ok v →
    ∀ x ∈ s.store.criteria, x.stage = e.stage → x.isActive → ∀ flag : Flag, x.kind = flag.kind.name →
      (∃ o ∈ v.outcomes, o.check.id = .int x.id) ∧ ∀ o ∈ v.outcomes, o.check.id = .int x.id →
        (o.classification = .passed ↔ lastSet settings flag e.lead x.id)
  single : ∀ lead criterion, (s.store.flags.filter fun r => r.lead = lead && r.criterion = criterion).length ≤ 1
  alone : ∀ t x, s.setting? t = some x → s.store.IsPut x.flag x.value x.lead x.criterion (s.after t).store ∧
    ∀ c entry k e, s.store.entry entry = .ok e → (preview c entry k (s.after t)).1 =
      (preview c entry k s).1.map fun v => if e.lead = x.lead then v.settle x.criterion x.value else v
  mismatch : ∀ env actor (flag : Flag) lead criterion value notes c, s.store.criterion criterion = .ok c →
    c.kind ≠ flag.kind.name → ∃ f, s.answer ⟨env, .setFlag actor flag lead criterion value notes, rfl⟩ = .error f
  failed : ∀ env actor flag lead criterion value notes f,
    let t : Turn := ⟨env, .setFlag actor flag lead criterion value notes, rfl⟩
    s.answer t = .error f → s.after t = s

/--
In every store that is reached, each criterion that is settled by hand is judged by what was set last about it for
the lead, there is one row of flags at most for a lead and a criterion, and what is set about a criterion for a
lead changes no other flag, nor anything else in any evaluation.
-/
theorem reached_flags (ts : List Turn) : FlagLaw (reached ts) (empty.settings ts) := by
  have hsettled := isSettled_reached ts
  have htrusty := isTrusty_reached ts
  constructor
  . intro c entry target k note m h
    rw [preview_eq htrusty]
    exact verdict_of_advance htrusty h
  . intro c entry k e v he hv x hx hstage hactive flag hkind
    rw [preview_eq htrusty] at hv
    obtain ⟨sla, hjudge⟩ := judge_of_previewing he hv
    obtain ⟨hsome, hmet⟩ := outcomes_of_judge hsettled.rising hjudge hx hstage hactive hkind
    refine ⟨hsome, fun o ho hid => ?_⟩
    rw [Outcome.classification_eq_passed, hmet o ho hid, hsettled.last]
  . intro lead criterion
    apply Store.length_le_one (hsettled.rows.ids.sublist (List.filter_sublist.map _))
    intro r hr r' hr'
    simp only [List.mem_filter, Bool.and_eq_true, decide_eq_true_eq] at hr hr'
    exact hsettled.rows.single r hr.1 r' hr'.1 (hr.2.1.trans hr'.2.1.symm) (hr.2.2.trans hr'.2.2.symm)
  . intro t x hset
    have htrusty' : ((reached ts).after t).IsTrusty := by
      rw [← reached_concat]
      exact isTrusty_reached _
    obtain ⟨c, hc, hid, hkind, flags, audit, hsets, hafter⟩ := of_setting? hset
    have hput : (reached ts).store.IsPut x.flag x.value x.lead x.criterion { (reached ts).store with flags, audit } :=
      hsettled.rows.isPut hsets
    rw [← hid] at hput
    rw [hafter] at htrusty' ⊢
    refine ⟨hid ▸ hput, ?_⟩
    intro call entry k e he
    rw [preview_eq htrusty', preview_eq htrusty, ← hid]
    exact previewing_of_put hsettled.rising hc hkind hput he
  . intro env actor flag lead criterion value notes c hc hkind
    exact answer_of_mismatch hc hkind
  . intro env actor flag lead criterion value notes f t h
    exact after_of_failed h

end Service

end StageGate
