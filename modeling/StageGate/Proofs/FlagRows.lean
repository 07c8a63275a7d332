import StageGate.Proofs.Gate
import StageGate.Proofs.Tables

/-!
This module contains what becomes of the rows of flags. There is one row at most for a lead and a criterion; to set
a flag writes this row, and neither its other flag nor any other row.
-/

namespace StageGate

open Transaction

/-! ## Flags of a row -/

def FlagRow.flags (r : FlagRow) : Flags :=
  ⟨r.done, r.approved⟩

namespace Flagging.Flag

def get (flag : Flag) (f : Flags) : Bool :=
  match flag with
  | .done => f.done
  | .approved => f.approved

def put (flag : Flag) (value : Bool) (f : Flags) : Flags :=
  match flag with
  | .done => { f with done := value }
  | .approved => { f with approved := value }

variable {flag : Flag} {value : Bool}

@[simp]
theorem get_none : flag.get .none = false := by
  cases flag <;> rfl

theorem get_put (flag' : Flag) (f : Flags) : flag'.get (flag.put value f) = if flag' = flag then value else flag'.get f := by
  cases flag' <;> cases flag <;> rfl

@[simp]
theorem flags_set (r : FlagRow) : (flag.set value r).flags = flag.put value r.flags := by
  cases flag <;> rfl

@[simp]
theorem set_id (r : FlagRow) : (flag.set value r).id = r.id := by
  cases flag <;> rfl

@[simp]
theorem set_lead (r : FlagRow) : (flag.set value r).lead = r.lead := by
  cases flag <;> rfl

@[simp]
theorem set_criterion (r : FlagRow) : (flag.set value r).criterion = r.criterion := by
  cases flag <;> rfl

end Flagging.Flag

/-! ## Rows of flags -/

namespace Store

/-- The rows of flags have rising ids, and no two of them belong to one lead and one criterion. -/
structure HasSingleFlags (s : Store) : Prop where
  ids : (s.flags.map (·.id)).Pairwise (· < ·)
  single : ∀ r ∈ s.flags, ∀ x ∈ s.flags, r.lead = x.lead → r.criterion = x.criterion → r = x

theorem hasSingleFlags_empty : empty.HasSingleFlags := by
  constructor <;> simp [empty]

/-- What becomes of the rows when a flag is set: a new row for the lead and the criterion, or theirs with the flag. -/
inductive Sets (flag : Flagging.Flag) (value : Bool) (lead criterion : Int) (s : Store) : List FlagRow → Prop where
  | added {r : FlagRow} (absent : ∀ x ∈ s.flags, x.lead = lead → x.criterion ≠ criterion)
      (id : r.id = nextId (s.flags.map (·.id))) (owner : r.lead = lead) (settled : r.criterion = criterion)
      (flags : r.flags = flag.put value .none) : Sets flag value lead criterion s (s.flags ++ [r])
  | changed {old r : FlagRow} (mem : old ∈ s.flags) (id : r.id = old.id) (owner : r.lead = lead ∧ old.lead = lead)
      (settled : r.criterion = criterion ∧ old.criterion = criterion) (flags : r.flags = flag.put value old.flags) :
      Sets flag value lead criterion s (s.flags.map fun x => if x.id = r.id then r else x)

/-- Whether the flags that one store has differ from those of another in one flag of a criterion for a lead. -/
def IsPut (flag : Flagging.Flag) (value : Bool) (lead criterion : Int) (s s' : Store) : Prop :=
  ∀ lead' criterion', s'.flagsOf lead' criterion' =
    if lead' = lead ∧ criterion' = criterion then flag.put value (s.flagsOf lead criterion)
    else s.flagsOf lead' criterion'

section

variable {s s' : Store} {flag : Flagging.Flag} {value : Bool} {lead criterion : Int}

theorem HasSingleFlags.flagsOf_of_mem (h : s.HasSingleFlags) {r : FlagRow} (hr : r ∈ s.flags) :
    s.flagsOf r.lead r.criterion = r.flags := by
  unfold flagsOf
  cases hfind : s.flags.find? fun x => x.lead = r.lead && x.criterion = r.criterion with
  | none =>
    rw [List.find?_eq_none] at hfind
    simpa using hfind r hr
  | some x =>
    have hkey := List.find?_some hfind
    simp only [Bool.and_eq_true, decide_eq_true_eq] at hkey
    rw [h.single x (List.mem_of_find?_eq_some hfind) r hr hkey.1 hkey.2]
    rfl

theorem flagsOf_of_absent (h : ∀ r ∈ s.flags, r.lead = lead → r.criterion ≠ criterion) :
    s.flagsOf lead criterion = .none := by
  have hnone : s.flags.find? (fun r => r.lead = lead && r.criterion = criterion) = none := by
    rw [List.find?_eq_none]
    intro r hr
    simpa using h r hr
  rw [flagsOf, hnone]
  rfl

theorem flagsOf_congr (h : s'.flags = s.flags) (lead criterion : Int) :
    s'.flagsOf lead criterion = s.flagsOf lead criterion := by
  unfold flagsOf
  rw [h]

theorem HasSingleFlags.congr (h : s.HasSingleFlags) (hflags : s'.flags = s.flags) : s'.HasSingleFlags := by
  constructor
  . rw [hflags]
    exact h.ids
  . rw [hflags]
    exact h.single

theorem HasSingleFlags.flagsOf_of_mem_iff (h : s.HasSingleFlags) (h' : s'.HasSingleFlags)
    (hmem : ∀ r : FlagRow, r.lead = lead → r.criterion = criterion → (r ∈ s'.flags ↔ r ∈ s.flags)) :
    s'.flagsOf lead criterion = s.flagsOf lead criterion := by
  by_cases hsome : ∃ r ∈ s.flags, r.lead = lead ∧ r.criterion = criterion
  . obtain ⟨r, hr, rfl, rfl⟩ := hsome
    rw [h.flagsOf_of_mem hr, h'.flagsOf_of_mem ((hmem r rfl rfl).mpr hr)]
  . have hnone : ∀ r ∈ s.flags, r.lead = lead → r.criterion ≠ criterion :=
      fun r hr hlead hcriterion => hsome ⟨r, hr, hlead, hcriterion⟩
    rw [flagsOf_of_absent hnone, flagsOf_of_absent]
    intro r hr hlead hcriterion
    exact hnone r ((hmem r hlead hcriterion).mp hr) hlead hcriterion

theorem mem_map_put {rows : List FlagRow} {old r x : FlagRow} (hold : old ∈ rows) (hid : r.id = old.id) :
    x ∈ rows.map (fun y => if y.id = r.id then r else y) ↔ x = r ∨ x ∈ rows ∧ x.id ≠ r.id := by
  rw [List.mem_map]
  constructor
  . rintro ⟨y, hy, rfl⟩
    split
    . exact .inl rfl
    . next hne => exact .inr ⟨hy, hne⟩
  . rintro (rfl | ⟨hx, hne⟩)
    . exact ⟨old, hold, by rw [if_pos hid.symm]⟩
    . exact ⟨x, hx, by rw [if_neg hne]⟩

theorem HasSingleFlags.ne_old (h : s.HasSingleFlags) {old r x : FlagRow} (hold : old ∈ s.flags) (hx : x ∈ s.flags)
    (hid : r.id = old.id) (hne : x.id ≠ r.id) (hlead : x.lead = old.lead) : x.criterion ≠ old.criterion := by
  intro hcriterion
  rw [h.single x hx old hold hlead hcriterion] at hne
  exact hne hid.symm

theorem HasSingleFlags.sets (h : s.HasSingleFlags) (hsets : s.Sets flag value lead criterion s'.flags) :
    s'.HasSingleFlags := by
  generalize hrows : s'.flags = rows at hsets
  cases hsets with
  | @added r absent id owner settled flags =>
    constructor
    . rw [hrows, List.map_append, List.map_cons, List.map_nil, id]
      exact pairwise_lt_concat h.ids
    . intro x hx y hy hlead hcriterion
      rw [hrows, List.mem_append, List.mem_singleton] at hx hy
      rcases hx with hx | rfl <;> rcases hy with hy | rfl
      . exact h.single x hx y hy hlead hcriterion
      . exact absurd (hcriterion.trans settled) (absent x hx (hlead.trans owner))
      . exact absurd (hcriterion.symm.trans settled) (absent y hy (hlead.symm.trans owner))
      . rfl
  | @changed old r mem id owner settled flags =>
    constructor
    . rw [hrows, map_id_put (·.id) s.flags r]
      exact h.ids
    . intro x hx y hy hlead hcriterion
      rw [hrows, mem_map_put mem id] at hx hy
      rcases hx with rfl | ⟨hx, hxne⟩ <;> rcases hy with rfl | ⟨hy, hyne⟩
      . rfl
      . have := h.ne_old mem hy id hyne (hlead.symm.trans (owner.1.trans owner.2.symm))
        exact absurd (hcriterion.symm.trans (settled.1.trans settled.2.symm)) this
      . have := h.ne_old mem hx id hxne (hlead.trans (owner.1.trans owner.2.symm))
        exact absurd (hcriterion.trans (settled.1.trans settled.2.symm)) this
      . exact h.single x hx y hy hlead hcriterion

theorem HasSingleFlags.isPut (h : s.HasSingleFlags) (hsets : s.Sets flag value lead criterion s'.flags) :
    IsPut flag value lead criterion s s' := by
  have h' := h.sets hsets
  intro lead' criterion'
  generalize hrows : s'.flags = rows at hsets
  cases hsets with
  | @added r absent id owner settled flags =>
    split
    . next hkey =>
      have hr : r ∈ s'.flags := by simp [hrows]
      rw [hkey.1, hkey.2, flagsOf_of_absent absent, ← owner, ← settled, h'.flagsOf_of_mem hr, flags]
    . next hkey =>
      apply h.flagsOf_of_mem_iff h'
      intro x hlead hcriterion
      rw [hrows, List.mem_append, List.mem_singleton]
      constructor
      . rintro (hx | rfl)
        . exact hx
        . exact absurd ⟨hlead.symm.trans owner, hcriterion.symm.trans settled⟩ hkey
      . exact .inl
  | @changed old r mem id owner settled flags =>
    have hr : r ∈ s'.flags := by
      rw [hrows, mem_map_put mem id]
      exact .inl rfl
    split
    . next hkey =>
      have hold := h.flagsOf_of_mem mem
      have hnew := h'.flagsOf_of_mem hr
      rw [owner.2, settled.2] at hold
      rw [owner.1, settled.1] at hnew
      rw [hkey.1, hkey.2, hnew, hold, flags]
    . next hkey =>
      apply h.flagsOf_of_mem_iff h'
      intro x hlead hcriterion
      rw [hrows, mem_map_put mem id]
      constructor
      . rintro (rfl | ⟨hx, -⟩)
        . exact absurd ⟨hlead.symm.trans owner.1, hcriterion.symm.trans settled.1⟩ hkey
        . exact hx
      . intro hx
        refine .inr ⟨hx, fun hid => hkey ?_⟩
        rw [eq_of_id_eq h.ids hx mem (hid.trans id)] at hlead hcriterion
        exact ⟨hlead.symm.trans owner.2, hcriterion.symm.trans settled.2⟩

end

end Store

/-! ## Setting a flag -/

namespace Flagging

open Configuration

variable {a : Author} {lead criterion : Value} {flag : Flag} {value : Bool} {notes : Value} {s s' : Store} {r : FlagRow}

theorem of_requireSettled {c : Criterion} (h : requireSettled flag criterion s = .ok c) :
    s.criterion criterion = .ok c ∧ c.kind = flag.kind.name := by
  unfold requireSettled at h
  rw [bind_eq_ok] at h
  obtain ⟨c', hc, h⟩ := h
  split at h
  . cases h
  . next hkind =>
    cases h
    exact ⟨hc, by simpa using hkind⟩

/-- What can be asked for in a column is not a list or an object, so it is the id that names the row. -/
theorem rowId?_of_require {α : Type} {resource : String} {row? : Int → Option α} {id : Value} {x : α} {n? : Option Int}
    (h : Store.require resource row? id = .ok x) (hid : Store.rowId? id = .ok n?) : ∃ n, n? = some n ∧ row? n = some x := by
  obtain ⟨v, n, hv, hn, hrow⟩ := Store.row?_of_require h
  have hkey : v = id := by
    cases id with
    | list | object => cases hid
    | _ =>
      simp only [Store.identity, Store.identity.usable] at hv
      split at hv <;> cases hv
      rfl
  rw [hkey, hid, Except.ok.injEq] at hn
  exact ⟨n, hn, hrow⟩

theorem row?_eq {l : Lead} {c : Criterion} {old : Option FlagRow} (hl : s.lead lead = .ok l)
    (hc : s.criterion criterion = .ok c) (h : row? lead criterion s = .ok old) :
    old = s.flags.find? fun r => l.id = r.lead && c.id = r.criterion := by
  simp only [row?, bind_eq_ok, pure, Except.pure, Except.ok.injEq] at h
  obtain ⟨n?, hn, m?, hm, rfl⟩ := h
  obtain ⟨n, rfl, hlead⟩ := rowId?_of_require hl hn
  obtain ⟨m, rfl, hcriterion⟩ := rowId?_of_require hc hm
  have hlid : l.id = n := by simpa using List.find?_some hlead
  have hcid : c.id = m := by simpa using List.find?_some hcriterion
  rw [hlid, hcid]
  simp only [Option.some.injEq]

theorem of_setFlag (h : setFlag a lead criterion flag value notes s = .ok (r, s')) : ∃ l c flags audit,
    s.lead lead = .ok l ∧ s.criterion criterion = .ok c ∧ c.kind = flag.kind.name ∧
      s.Sets flag value l.id c.id flags ∧ s' = { s with flags, audit } := by
  simp only [setFlag, Transaction.bind_eq_ok, reading_eq_ok, lift_eq_ok, get_eq_ok, record_eq_ok, pure_eq_ok] at h
  obtain ⟨l, _, ⟨hl, rfl⟩, c, _, ⟨hc, rfl⟩, old, _, ⟨hold, rfl⟩, _, _, ⟨rfl, rfl⟩, validatedBy, _, ⟨-, rfl⟩, kept, _,
    ⟨-, rfl⟩, _, s₁, hsave, stage, _, ⟨-, rfl⟩, _, _, ⟨name, -, rfl⟩, rfl, rfl⟩ := h
  obtain ⟨hc, hkind⟩ := of_requireSettled hc
  have hrow := row?_eq hl hc hold
  cases old with
  | none =>
    simp only [saveRow, Option.isSome_none, Bool.false_eq_true, ↓reduceIte, addFlags, modify_eq_ok] at hsave
    subst hsave
    refine ⟨l, c, _, _, hl, hc, hkind, .added ?_ ?_ ?_ ?_ ?_, rfl⟩
    . intro x hx hlead hcriterion
      have := List.find?_eq_none.mp hrow.symm x hx
      simp [hlead, hcriterion] at this
    . simp [blankRow]
    . simp [blankRow]
    . simp [blankRow]
    . rw [Flag.flags_set]
      rfl
  | some x =>
    simp only [saveRow, Option.isSome_some, ↓reduceIte, putFlags, modify_eq_ok] at hsave
    subst hsave
    have hkey := List.find?_some hrow.symm
    simp only [Bool.and_eq_true, decide_eq_true_eq] at hkey
    refine ⟨l, c, _, _, hl, hc, hkind, .changed (List.mem_of_find?_eq_some hrow.symm) ?_ ?_ ?_ ?_, rfl⟩
    . simp
    . simp [hkey.1]
    . simp [hkey.2]
    . rw [Flag.flags_set]
      rfl

end Flagging

end StageGate
