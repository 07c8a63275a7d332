import Mathlib.Data.List.Induction
import StageGate.Proofs.Lifecycle

/-!
This module contains where entries come from. An entry that a transfer opened names the one that the
transfer closed, and no two entries name the same one, so that the way back from an entry is a line that
ends at an enrollment.
-/

namespace StageGate

/-- What an entry that a transfer closed is to the one that was opened in its place. -/
structure Entry.PassesTo (e n : Entry) : Prop where
  lt : e.id < n.id
  status : e.status = .archived
  reason : ∃ reason, e.archiveReason = some reason ∧ "transferred".toList <+: reason.toList
  lead : e.lead = n.lead
  apart : e.pipeline ≠ n.pipeline
  closedAt : e.closedAt = some n.enrolledAt

theorem Entry.PassesTo.becomes {e n n' : Entry} (h : e.PassesTo n) (hn : n.Becomes n') : e.PassesTo n' where
  lt := by
    rw [hn.id]
    exact h.lt
  status := h.status
  reason := h.reason
  lead := by rw [h.lead, hn.lead]
  apart := by
    rw [hn.pipeline]
    exact h.apart
  closedAt := by rw [h.closedAt, hn.enrolledAt]

namespace Closing

theorem transferred_prefix (reason : Value) :
    "transferred".toList <+: (Entry.cutReason (transferReason reason)).toList := by
  have hword : "transferred".toList <+: (transferReason reason).toList := by
    unfold transferReason
    split
    . rw [String.toList_append]
      exact List.IsPrefix.trans ⟨": ".toList, rfl⟩ (List.prefix_append ..)
    . exact List.prefix_refl _
  have hcut : (Entry.cutReason (transferReason reason)).toList =
      (transferReason reason).toList.take Entry.longestReason := String.toList_ofList
  rw [hcut, List.prefix_take_iff]
  exact ⟨hword, by decide⟩

theorem keptReason_of_transfer {reason : Value} {kept : Option String}
    (h : keptReason (.text (transferReason reason)) = .ok kept) :
    kept = some (Entry.cutReason (transferReason reason)) := by
  have htrue : (Value.text (transferReason reason)).isTrue := by
    unfold transferReason
    split <;> simp [Value.isTrue]
  simp only [keptReason, htrue, Bool.not_true, Bool.false_eq_true, ↓reduceIte, bind_eq_ok] at h
  obtain ⟨_, -, h⟩ := h
  cases h
  rfl

end Closing

namespace Store

/-- Where an entry that is there after a step comes from. -/
inductive Origin (s s' : Store) (f : Effect) (e' : Entry) : Prop where
  | kept {e : Entry} (mem : e ∈ s.entries) (becomes : e.Becomes e')
  | enrolled (effect : f = .enroll) (id : e'.id = nextId (s.entries.map (·.id)))
      (origin : e'.transferredFrom = none)
  | transferred {e closed : Entry} (id : e'.id = nextId (s.entries.map (·.id))) (held : s.Holds e)
      (origin : e'.transferredFrom = some e.id) (there : closed ∈ s'.entries) (same : closed.id = e.id)
      (passes : closed.PassesTo e')

section

variable {s s' : Store} {f : Effect} {e e' new : Entry}

theorem origin_of_mem (he : e' ∈ s.entries) : s.Origin s' f e' :=
  .kept he (.refl e')

theorem origin_putEntry (he : e ∈ s.entries) (hbecomes : e.Becomes new) (he' : e' ∈ (s.putEntry new).entries) :
    s.Origin s' f e' := by
  rcases mem_putEntry he' with rfl | ⟨hmem, -⟩
  . exact .kept he hbecomes
  . exact origin_of_mem hmem

theorem passesTo_of_opening {c : Call} {first : Stage} {reason : Value} {kept : Option String} (held : s.Holds e)
    (keeps : Closing.keptReason (.text (Closing.transferReason reason)) = .ok kept) (lead : new.lead = e.lead)
    (apart : new.pipeline ≠ e.pipeline) (h : Opening c (s.putEntry (e.archive kept c.now)) new first) :
    (e.archive kept c.now).PassesTo new where
  lt := by
    rw [h.id, putEntry_ids]
    have hmem : e.id ∈ s.entries.map (·.id) := List.mem_map_of_mem held.mem
    exact lt_nextId hmem
  status := rfl
  reason := ⟨_, Closing.keptReason_of_transfer keeps, Closing.transferred_prefix reason⟩
  lead := lead.symm
  apart := apart.symm
  closedAt := by
    rw [h.enrolledAt]
    rfl

theorem Step.origin (h : s.Step f s') (he' : e' ∈ s'.entries) : s.Origin s' f e' := by
  cases h with
  | aside _ entries _ =>
    rw [entries] at he'
    exact origin_of_mem he'
  | addStage => exact origin_of_mem he'
  | note => exact origin_of_mem he'
  | refresh b held => exact origin_putEntry held.mem (.remember held.isActive b) he'
  | enroll opening origin =>
    rcases List.mem_append.mp he' with he' | he'
    . exact origin_of_mem he'
    . rw [List.mem_singleton.mp he']
      exact .enrolled rfl opening.id origin
  | move held _ _ placed =>
    exact origin_putEntry held.mem (.of_isPlaced held.isActive (Advancement.isPlaced_of_placed placed)) he'
  | archive held => exact origin_putEntry held.mem (.archive held.isActive _ _) he'
  | @transfer _ c e opened _ first _ _ kept held _ keeps lead _ apart opening origin =>
    rcases List.mem_append.mp he' with he' | he'
    . exact origin_putEntry held.mem (.archive held.isActive _ _) he'
    . rw [List.mem_singleton.mp he']
      have hid := opening.id
      rw [putEntry_ids] at hid
      have hclosed : e.archive kept c.now ∈ (s.putEntry (e.archive kept c.now)).entries :=
        mem_putEntry_self held.mem rfl
      exact .transferred hid held origin (List.mem_append_left _ hclosed) rfl
        (passesTo_of_opening held keeps lead apart opening)

end

/-! ## Entries that name others -/

structure IsTraced (s : Store) : Prop where
  sources : ∀ n ∈ s.entries, ∀ m, n.transferredFrom = some m → ∃ e ∈ s.entries, e.id = m ∧ e.PassesTo n
  unforked : ∀ n ∈ s.entries, ∀ x ∈ s.entries, ∀ m, n.transferredFrom = some m →
    x.transferredFrom = some m → n = x

theorem isTraced_empty : empty.IsTraced := by
  constructor <;> simp [empty]

namespace IsTraced

variable {s s' : Store} {f : Effect}

/-- An entry that is active has not been transferred yet. -/
theorem ne_source (h : s.IsTraced) (hs : s.IsSound) {e n : Entry} (held : s.Holds e) (hn : n ∈ s.entries) :
    n.transferredFrom ≠ some e.id := by
  intro horigin
  obtain ⟨x, hx, hid, hpasses⟩ := h.sources n hn e.id horigin
  have hstatus := hpasses.status
  rw [eq_of_id_eq hs.entryIds hx held.mem hid, Entry.isActive_iff.mp held.isActive] at hstatus
  cases hstatus

theorem step (hs : s.IsSound) (h : s.IsTraced) (hstep : s.Step f s') : s'.IsTraced := by
  have hids := (hs.step hstep).entryIds
  constructor
  . intro n' hn' m horigin
    cases hstep.origin hn' with
    | @kept n mem becomes =>
      rw [becomes.origin] at horigin
      obtain ⟨e, he, hid, hpasses⟩ := h.sources n mem m horigin
      obtain ⟨e', he', hbecomes⟩ := Continues.step hs hstep e he
      -- What was transferred is closed, and nothing changes about it any more.
      have hclosed : e' = e := hbecomes.closed (by simp [hpasses.status])
      rw [hclosed] at he'
      exact ⟨e, he', hid, hpasses.becomes becomes⟩
    | enrolled _ _ origin =>
      rw [origin] at horigin
      cases horigin
    | transferred _ _ origin there same passes =>
      rw [origin, Option.some.injEq] at horigin
      exact ⟨_, there, same.trans horigin, passes⟩
  . intro n' hn' x' hx' m horigin horigin'
    cases hstep.origin hn' with
    | @kept n mem becomes =>
      rw [becomes.origin] at horigin
      cases hstep.origin hx' with
      | @kept x mem' becomes' =>
        rw [becomes'.origin] at horigin'
        have hsame := h.unforked n mem x mem' m horigin horigin'
        subst hsame
        exact eq_of_id_eq hids hn' hx' (becomes.id.trans becomes'.id.symm)
      | enrolled _ _ origin =>
        rw [origin] at horigin'
        cases horigin'
      | transferred _ held origin =>
        rw [← horigin', origin] at horigin
        exact absurd horigin (h.ne_source hs held mem)
    | enrolled _ _ origin =>
      rw [origin] at horigin
      cases horigin
    | transferred id held origin =>
      cases hstep.origin hx' with
      | kept mem' becomes' =>
        rw [becomes'.origin, ← horigin, origin] at horigin'
        exact absurd horigin' (h.ne_source hs held mem')
      | enrolled _ _ origin' =>
        rw [origin'] at horigin'
        cases horigin'
      | transferred id' => exact eq_of_id_eq hids hn' hx' (id.trans id'.symm)

end IsTraced

/-! ## The way back -/

/-- Whether the way back from an entry, over the entries that are named, leads to an entry that names none. -/
inductive StemsFrom (s : Store) : Entry → Entry → Prop where
  | root {e : Entry} (mem : e ∈ s.entries) (origin : e.transferredFrom = none) : StemsFrom s e e
  | link {n e root : Entry} {m : Int} (origin : n.transferredFrom = some m) (source : s.entryRow? m = some e)
      (stems : StemsFrom s e root) : StemsFrom s n root

namespace StemsFrom

variable {s : Store} {n e root other : Entry}

theorem of_root (h : s.StemsFrom n root) : root ∈ s.entries ∧ root.transferredFrom = none := by
  induction h with
  | root mem origin => exact ⟨mem, origin⟩
  | link _ _ _ ih => exact ih

theorem unique (h : s.StemsFrom n root) (h' : s.StemsFrom n other) : other = root := by
  induction h with
  | root _ origin =>
    cases h' with
    | root => rfl
    | link origin' =>
      rw [origin] at origin'
      cases origin'
  | link origin source _ ih =>
    cases h' with
    | root _ origin' =>
      rw [origin] at origin'
      cases origin'
    | link origin' source' stems' =>
      rw [origin, Option.some.injEq] at origin'
      subst origin'
      rw [source, Option.some.injEq] at source'
      subst source'
      exact ih stems'

end StemsFrom

theorem entryRow?_of_mem {s : Store} (hs : s.IsSound) {e : Entry} (he : e ∈ s.entries) :
    s.entryRow? e.id = some e := by
  unfold entryRow?
  rw [find?_id_eq_some hs.entryIds]
  exact ⟨he, rfl⟩

theorem IsTraced.exists_root {s : Store} (hs : s.IsSound) (h : s.IsTraced) {n : Entry} (hn : n ∈ s.entries) :
    ∃ root, s.StemsFrom n root := by
  -- By induction on how many entries have smaller ids: the one that is named is among them.
  induction hcount : s.entries.countP (·.id < n.id) using Nat.strongRecOn generalizing n with
  | _ count ih =>
    subst hcount
    cases horigin : n.transferredFrom with
    | none => exact ⟨n, .root hn horigin⟩
    | some m =>
      obtain ⟨e, he, rfl, hpasses⟩ := h.sources n hn m horigin
      have hlt := hpasses.lt
      have hfewer : s.entries.countP (·.id < e.id) < s.entries.countP (·.id < n.id) := by
        apply countP_lt_of_imp _ he
        . simp
        . simpa using hlt
        . intro x hx
          simp only [decide_eq_true_eq] at hx ⊢
          omega
      obtain ⟨root, hroot⟩ := ih _ hfewer he rfl
      exact ⟨root, .link horigin (entryRow?_of_mem hs he) hroot⟩

/-! ## Entries that name no other -/

theorem Steps.enrolled {s s' : Store} {f : Effect} {k : Nat} {e' : Entry} (h : s.Steps f k s')
    (he' : e' ∈ s'.entries) (horigin : e'.transferredFrom = none) :
    (∃ e ∈ s.entries, e.Becomes e') ∨ f = .enroll := by
  induction h generalizing e' with
  | refl => exact .inl ⟨e', he', .refl e'⟩
  | tail _ step ih =>
    cases step.origin he' with
    | @kept e mem becomes =>
      rw [becomes.origin] at horigin
      rcases ih mem horigin with ⟨x, hx, hbecomes⟩ | heffect
      . exact .inl ⟨x, hx, hbecomes.trans becomes⟩
      . exact .inr heffect
    | enrolled effect => exact .inr effect
    | transferred _ _ origin =>
      rw [horigin] at origin
      cases origin

end Store

namespace Service

theorem isTraced_reached (ts : List Turn) : (reached ts).store.IsTraced :=
  run_induction (s := empty) (fun s s' => s.IsTraced → s'.IsTraced) (fun _ h => h)
    (fun h h' hs => h' (h hs)) (fun hs hstep h => h.step hs hstep) Store.isSound_empty ts Store.isTraced_empty

/-- Whether one of the turns is an enrollment, of one lead or of many, that opened an entry. -/
def Enrolls (ts : List Turn) (id : Int) : Prop :=
  ∃ before t rest, ts = before ++ t :: rest ∧ t.command.effect = .enroll ∧
    (reached before).store.entryRow? id = none ∧ ((reached before).after t).store.entryRow? id ≠ none

theorem Enrolls.concat {ts : List Turn} {id : Int} (h : Enrolls ts id) (t : Turn) : Enrolls (ts ++ [t]) id := by
  obtain ⟨before, t', rest, rfl, hrest⟩ := h
  exact ⟨before, t', rest ++ [t], by simp, hrest⟩

theorem enrolls_of_root (ts : List Turn) {e : Entry} (he : e ∈ (reached ts).store.entries)
    (horigin : e.transferredFrom = none) : Enrolls ts e.id := by
  induction ts using List.reverseRecOn generalizing e with
  | nil => simp [reached, run, empty, Store.empty] at he
  | append_singleton ts t ih =>
    have hs := isSound_reached ts
    obtain ⟨k, hsteps, -⟩ := exists_steps hs t
    rw [reached_concat] at he
    have hthere := Store.entryRow?_of_mem (hs.steps hsteps) he
    -- It was there before this turn, or this turn is the enrollment.
    cases hbefore : (reached ts).store.entryRow? e.id with
    | none =>
      rcases hsteps.enrolled he horigin with ⟨x, hx, hbecomes⟩ | heffect
      . rw [hbecomes.id, Store.entryRow?_of_mem hs hx] at hbefore
        cases hbefore
      . exact ⟨ts, t, [], rfl, heffect, hbefore, by simp [hthere]⟩
    | some x =>
      have hx := Store.find?_id_eq_some hs.entryIds |>.mp hbefore
      obtain ⟨x', hx', hbecomes⟩ := hsteps.continues hs x hx.1
      have hsame := Store.eq_of_id_eq (hs.steps hsteps).entryIds hx' he (hbecomes.id.trans hx.2)
      subst hsame
      rw [hbecomes.id]
      exact (ih hx.1 (by rw [← hbecomes.origin, horigin])).concat t

/--
The entry that another one names as its source is there with a smaller id: it was archived as transferred
when the other was enrolled, for the same lead and in another pipeline. No two entries name the same one,
and the way back from an entry leads to a single entry that names none, which an enrollment opened.
-/
theorem reached_lineage (ts : List Turn) :
    (∀ n ∈ (reached ts).store.entries, ∀ m, n.transferredFrom = some m →
      m < n.id ∧ ∃ e, (reached ts).store.entryRow? m = some e ∧ e.PassesTo n) ∧
    (∀ n ∈ (reached ts).store.entries, ∀ x ∈ (reached ts).store.entries, ∀ m,
      n.transferredFrom = some m → x.transferredFrom = some m → n = x) ∧
    ∀ n ∈ (reached ts).store.entries, ∃ root, (reached ts).store.StemsFrom n root ∧
      Enrolls ts root.id ∧ ∀ other, (reached ts).store.StemsFrom n other → other = root := by
  have hs := isSound_reached ts
  have htraced := isTraced_reached ts
  refine ⟨?_, htraced.unforked, ?_⟩
  . intro n hn m horigin
    obtain ⟨e, he, rfl, hpasses⟩ := htraced.sources n hn m horigin
    exact ⟨hpasses.lt, e, Store.entryRow?_of_mem hs he, hpasses⟩
  . intro n hn
    obtain ⟨root, hroot⟩ := htraced.exists_root hs hn
    obtain ⟨hmem, horigin⟩ := hroot.of_root
    exact ⟨root, hroot, enrolls_of_root ts hmem horigin, fun _ hother => hroot.unique hother⟩

end Service

end StageGate
