import Mathlib.Logic.Function.Basic
import StageGate.Proofs.Errands

/-!
This module contains that owners who work at the same time, in whatever way their steps follow each other, never
wait for each other in a circle. Whoever waits has only locks that come before the one that it waits for, so
the locks that a circle waits for would have to rise without end.
-/

namespace StageGate

/--
An owner at work: the keys that it has, newest first, those that it takes next, in their order, and the stage
that it then looks at.
-/
structure Party where
  held : List LockKey
  wanted : List LockKey
  target : Option Value

namespace Party

def idle : Party :=
  ⟨[], [], none⟩

/-- What is taken rises, and a stage comes after the entries of leads with numbers only. -/
structure IsSteady (p : Party) : Prop where
  rising : LockKey.AreRising (p.held.reverse ++ p.wanted)
  entries : p.target ≠ none → ∀ key ∈ p.held.reverse ++ p.wanted, key.id.IsNumbered

theorem isSteady_idle : idle.IsSteady :=
  ⟨List.Pairwise.nil, fun _ _ h => nomatch h⟩

theorem isSteady_of_errand {e : Errand} (h : e.IsOfEntries) : IsSteady ⟨[], LockKey.sorted e.keys, e.target⟩ where
  rising := LockKey.areRising_sorted e.keys
  entries := fun htarget => LockKey.forall_mem_sorted.mpr (h htarget)

theorem IsSteady.take {held wanted : List LockKey} {key : LockKey} {target : Option Value}
    (h : IsSteady ⟨held, key :: wanted, target⟩) : IsSteady ⟨key :: held, wanted, target⟩ := by
  have hsame : (key :: held).reverse ++ wanted = held.reverse ++ key :: wanted := by simp
  exact ⟨hsame ▸ h.rising, fun ht => hsame ▸ h.entries ht⟩

theorem IsSteady.look {held : List LockKey} {target : Value} {s : Store} {key? : Option LockKey}
    (h : IsSteady ⟨held, [], some target⟩) (hkey : Errand.capacityKey? target s = .ok key?) :
    IsSteady ⟨held, key?.toList, none⟩ := by
  refine ⟨?_, fun hnone => absurd rfl hnone⟩
  have hrising : LockKey.AreRising held.reverse := by simpa using h.rising
  obtain ⟨stage?, -, rfl⟩ := Errand.of_capacityKey? hkey
  cases stage? with
  | none => simpa using hrising
  | some stage =>
    apply List.pairwise_append.mpr
    refine ⟨hrising, List.pairwise_singleton _ _, ?_⟩
    intro key hin other hother
    rw [List.mem_singleton.mp hother]
    exact (h.entries (by simp) key (by simpa using hin)).lt_stage

theorem IsSteady.leave {p : Party} (h : p.IsSteady) : IsSteady ⟨p.held, [], none⟩ := by
  refine ⟨?_, fun hnone => absurd rfl hnone⟩
  rw [List.append_nil]
  exact List.Pairwise.sublist (List.sublist_append_left _ _) h.rising

theorem IsSteady.return {held : List LockKey} {key : LockKey} (h : IsSteady ⟨key :: held, [], none⟩) :
    IsSteady ⟨held, [], none⟩ := by
  refine ⟨List.Pairwise.sublist ?_ h.rising, fun hnone => absurd rfl hnone⟩
  simp

theorem IsSteady.not_mem {held wanted : List LockKey} {key : LockKey} {target : Option Value}
    (h : IsSteady ⟨key :: held, wanted, target⟩) : key.id ∉ held.map (·.id) := by
  have hheld : LockKey.AreRising (key :: held).reverse := List.Pairwise.sublist (List.sublist_append_left _ _) h.rising
  have hnodup := hheld.nodup
  rw [List.map_reverse, List.nodup_reverse, List.map_cons, List.nodup_cons] at hnodup
  exact hnodup.1

end Party

/-- Owners who share a table of locks, each at work on one operation after the other. -/
structure Floor where
  table : LockTable
  party : Owner → Party

namespace Floor

/--
What one owner does. It reads a store, which others may have changed in the meantime, when it begins with an
operation and when it looks at the stage that a move enters. It may leave its work at any time, and then
returns what it has.
-/
inductive Act where
  | begins (o : Owner) (k : Command) (s : Store)
  | takes (o : Owner)
  | looks (o : Owner) (s : Store)
  | leaves (o : Owner)
  | returns (o : Owner)

def put (f : Floor) (o : Owner) (p : Party) (table : LockTable) : Floor :=
  ⟨table, Function.update f.party o p⟩

def begins (f : Floor) (o : Owner) (k : Command) (s : Store) : Floor :=
  match f.party o, k.errand? s with
  | ⟨[], [], none⟩, .ok (some e) => f.put o ⟨[], LockKey.sorted e.keys, e.target⟩ f.table
  | _, _ => f

/-- Takes the next key. An owner whose next key somebody else has waits. -/
def takes (f : Floor) (o : Owner) : Floor :=
  match f.party o with
  | ⟨held, key :: wanted, target⟩ =>
    match f.table.acquire? o key with
    | some taken => f.put o ⟨key :: held, wanted, target⟩ taken
    | none => f
  | _ => f

def looks (f : Floor) (o : Owner) (s : Store) : Floor :=
  match f.party o with
  | ⟨held, [], some target⟩ =>
    match Errand.capacityKey? target s with
    | .ok key? => f.put o ⟨held, key?.toList, none⟩ f.table
    | .error _ => f
  | _ => f

def leaves (f : Floor) (o : Owner) : Floor :=
  f.put o ⟨(f.party o).held, [], none⟩ f.table

def returns (f : Floor) (o : Owner) : Floor :=
  match f.party o with
  | ⟨key :: held, [], none⟩ => f.put o ⟨held, [], none⟩ (f.table.release o key)
  | _ => f

def after (f : Floor) : Act → Floor
  | .begins o k s => f.begins o k s
  | .takes o => f.takes o
  | .looks o s => f.looks o s
  | .leaves o => f.leaves o
  | .returns o => f.returns o

def reached (acts : List Act) : Floor :=
  acts.foldl after ⟨[], fun _ => .idle⟩

def Holds (f : Floor) (o : Owner) (key : LockKey) : Prop :=
  key.id ∈ (f.party o).held.map (·.id)

def Waits (f : Floor) (o : Owner) (key : LockKey) : Prop :=
  (f.party o).wanted.head? = some key ∧ f.table.acquire? o key = none

instance (f : Floor) (o : Owner) (key : LockKey) : Decidable (f.Holds o key) :=
  inferInstanceAs (Decidable (_ ∈ _))

instance (f : Floor) (o : Owner) (key : LockKey) : Decidable (f.Waits o key) :=
  inferInstanceAs (Decidable (_ ∧ _))

/-! ## What every step keeps -/

structure IsOrderly (f : Floor) : Prop where
  ids : f.table.ids.Nodup
  settled : f.table.IsSettled
  once : ∀ key, f.table.count key ≤ 1
  holds : ∀ key o, f.table.owner? key = some o ↔ f.Holds o key
  steady : ∀ o, (f.party o).IsSteady

theorem isOrderly_start : IsOrderly ⟨[], fun _ => .idle⟩ where
  ids := List.nodup_nil
  settled := fun _ h => nomatch h
  once := fun _ => Nat.zero_le 1
  holds := fun key o => by simp [Holds, Party.idle]
  steady := fun _ => Party.isSteady_idle

section

variable {f : Floor} {o o' : Owner} {p : Party} {table : LockTable} {key k : LockKey}

@[simp]
theorem party_put_self : (f.put o p table).party o = p :=
  Function.update_self _ _ _

theorem party_put_of_ne (h : o' ≠ o) : (f.put o p table).party o' = f.party o' :=
  Function.update_of_ne h _ _

theorem IsOrderly.put (hf : f.IsOrderly) (hids : table.ids.Nodup) (hsettled : table.IsSettled)
    (honce : ∀ k, table.count k ≤ 1) (hown : ∀ k, table.owner? k = some o ↔ k.id ∈ p.held.map (·.id))
    (hothers : ∀ k o', o' ≠ o → (table.owner? k = some o' ↔ f.table.owner? k = some o')) (hp : p.IsSteady) :
    (f.put o p table).IsOrderly where
  ids := hids
  settled := hsettled
  once := honce
  holds := by
    intro k o'
    unfold Holds
    by_cases ho : o' = o
    . subst ho
      rw [party_put_self]
      exact hown k
    . rw [party_put_of_ne ho]
      exact (hothers k o' ho).trans (hf.holds k o')
  steady := by
    intro o'
    by_cases ho : o' = o
    . subst ho
      rw [party_put_self]
      exact hp
    . rw [party_put_of_ne ho]
      exact hf.steady o'

/-- An owner that neither takes nor returns anything leaves the table as it is. -/
theorem IsOrderly.renew (hf : f.IsOrderly) (hheld : p.held = (f.party o).held) (hp : p.IsSteady) :
    (f.put o p f.table).IsOrderly := by
  refine hf.put hf.ids hf.settled hf.once ?_ (fun _ _ _ => Iff.rfl) hp
  intro k
  rw [hheld]
  exact hf.holds k o

theorem IsOrderly.take {held wanted : List LockKey} {target : Option Value} {taken : LockTable} (hf : f.IsOrderly)
    (hparty : f.party o = ⟨held, key :: wanted, target⟩) (ht : f.table.acquire? o key = some taken) :
    (f.put o ⟨key :: held, wanted, target⟩ taken).IsOrderly := by
  have hsteady := hparty ▸ hf.steady o
  have hnew : ∀ k, key.id = k.id → f.table.owner? k = none := by
    intro k heq
    cases howner : f.table.owner? k with
    | none => rfl
    | some o' =>
      have hsame := (LockTable.of_acquire? ht heq).2.2 o' howner
      subst hsame
      have hin := (hf.holds k o').mp howner
      unfold Holds at hin
      rw [hparty, ← heq] at hin
      exact absurd hin hsteady.take.not_mem
  refine hf.put (LockTable.nodup_of_acquire? ht hf.ids) (hf.settled.of_acquire? ht) ?_ ?_ ?_ hsteady.take
  . intro k
    by_cases heq : key.id = k.id
    . have hzero := hf.settled.count_eq_zero_iff.mpr (hnew k heq)
      have hcount := (LockTable.of_acquire? ht heq).2.1
      omega
    . rw [LockTable.count_congr (LockTable.find?_of_acquire? ht heq)]
      exact hf.once k
  . intro k
    rw [List.map_cons, List.mem_cons]
    by_cases heq : key.id = k.id
    . simp [(LockTable.of_acquire? ht heq).1, heq]
    . have hold := hf.holds k o
      unfold Holds at hold
      rw [hparty] at hold
      rw [LockTable.owner?_congr (LockTable.find?_of_acquire? ht heq), hold]
      simp [Ne.symm heq]
  . intro k o' hne
    by_cases heq : key.id = k.id
    . simp [(LockTable.of_acquire? ht heq).1, hnew k heq, Ne.symm hne]
    . rw [LockTable.owner?_congr (LockTable.find?_of_acquire? ht heq)]

theorem IsOrderly.return {held : List LockKey} (hf : f.IsOrderly) (hparty : f.party o = ⟨key :: held, [], none⟩) :
    (f.put o ⟨held, [], none⟩ (f.table.release o key)).IsOrderly := by
  have hsteady := hparty ▸ hf.steady o
  have hholds : ∀ k, f.table.owner? k = some o ↔ k.id ∈ key.id :: held.map (·.id) := by
    intro k
    have hold := hf.holds k o
    unfold Holds at hold
    rw [hparty] at hold
    exact hold
  have howner : f.table.owner? key = some o := (hholds key).mpr List.mem_cons_self
  -- It was taken once, so it is gone after it is returned once.
  have hgone : ∀ k, key.id = k.id → (f.table.release o key).count k = 0 := by
    intro k heq
    have hcount := (LockTable.of_release hf.ids howner heq).1
    have honce := hf.once k
    omega
  have hsettled := hf.settled.release howner
  refine hf.put (hf.ids.sublist (LockTable.sublist_release _ _ _)) hsettled ?_ ?_ ?_ hsteady.return
  . intro k
    by_cases heq : key.id = k.id
    . rw [hgone k heq]
      exact Nat.zero_le 1
    . rw [LockTable.count_congr (LockTable.find?_release heq)]
      exact hf.once k
  . intro k
    by_cases heq : key.id = k.id
    . rw [hsettled.count_eq_zero_iff.mp (hgone k heq), ← heq]
      simp only [reduceCtorEq, false_iff]
      exact hsteady.not_mem
    . rw [LockTable.owner?_congr (LockTable.find?_release heq), hholds, List.mem_cons]
      simp [Ne.symm heq]
  . intro k o' hne
    by_cases heq : key.id = k.id
    . have hsame : f.table.owner? k = some o := (hholds k).mpr (by simp [heq])
      simp [hsettled.count_eq_zero_iff.mp (hgone k heq), hsame, Ne.symm hne]
    . rw [LockTable.owner?_congr (LockTable.find?_release heq)]

theorem IsOrderly.after (hf : f.IsOrderly) (act : Act) : (f.after act).IsOrderly := by
  cases act with
  | begins o k s =>
    change (f.begins o k s).IsOrderly
    unfold begins
    split
    . next e hparty he => exact hf.renew (by rw [hparty]) (Party.isSteady_of_errand (Command.isOfEntries_of_errand? he))
    . exact hf
  | takes o =>
    change (f.takes o).IsOrderly
    unfold takes
    split
    . next held key wanted target hparty =>
      split
      . next taken ht => exact hf.take hparty ht
      . exact hf
    . exact hf
  | looks o s =>
    change (f.looks o s).IsOrderly
    unfold looks
    split
    . next held target hparty =>
      split
      . next key? hkey => exact hf.renew (by rw [hparty]) ((hparty ▸ hf.steady o).look hkey)
      . exact hf
    . exact hf
  | leaves o => exact hf.renew rfl (hf.steady o).leave
  | returns o =>
    change (f.returns o).IsOrderly
    unfold returns
    split
    . next key held hparty => exact hf.return hparty
    . exact hf

theorem isOrderly_reached (acts : List Act) : (reached acts).IsOrderly := by
  suffices h : ∀ f : Floor, f.IsOrderly → (acts.foldl Floor.after f).IsOrderly from h _ isOrderly_start
  induction acts with
  | nil => exact fun _ h => h
  | cons act acts ih => exact fun f h => ih _ (h.after act)

/-! ## No circle -/

theorem IsOrderly.exists_holder (hf : f.IsOrderly) (hw : f.Waits o key) : ∃ o', o' ≠ o ∧ f.Holds o' key := by
  obtain ⟨o', howner, hne⟩ := LockTable.acquire?_eq_none_iff.mp hw.2
  exact ⟨o', hne, (hf.holds key o').mp howner⟩

/-- What an owner waits for comes after everything that it has. -/
theorem IsOrderly.lt_of_waits (hf : f.IsOrderly) (hh : f.Holds o k) (hw : f.Waits o key) : k.id.lt key.id := by
  obtain ⟨k', hk', hid⟩ := List.mem_map.mp hh
  obtain ⟨wanted, hwanted⟩ := List.head?_eq_some_iff.mp hw.1
  have hrising := (hf.steady o).rising
  rw [hwanted] at hrising
  rw [← hid]
  exact (List.pairwise_append.mp hrising).2.2 k' (List.mem_reverse.mpr hk') key List.mem_cons_self

theorem IsOrderly.mem_ids (hf : f.IsOrderly) (hh : f.Holds o key) : key.id ∈ f.table.ids := by
  rw [← LockTable.count_pos_iff_mem, hf.settled.count_pos_iff]
  exact ⟨o, (hf.holds key o).mpr hh⟩

theorem countP_lt_countP {l : List LockId} {i j : LockId} (h : i.lt j) (hj : j ∈ l) :
    l.countP (j.lt ·) < l.countP (i.lt ·) :=
  Store.countP_lt_of_imp (fun _ hlt => LockId.lt_trans h hlt) hj (LockId.lt_irrefl j) h

/-- The induction is on how many of the locks that are held come after the one that is waited for. -/
theorem IsOrderly.not_circular (hf : f.IsOrderly) {S : Owner → Prop}
    (h : ∀ o, S o → ∃ o' key, S o' ∧ f.Waits o key ∧ f.Holds o' key) (o : Owner) : ¬S o := by
  intro ho
  obtain ⟨-, key, -, hw, -⟩ := h o ho
  induction hn : f.table.ids.countP (key.id.lt ·) using Nat.strongRecOn generalizing o key with
  | ind n ih =>
    obtain ⟨o', key', ho', hw', hheld⟩ := h o ho
    have hsame : key' = key := Option.some.inj (hw'.1.symm.trans hw.1)
    subst hsame
    obtain ⟨o'', next, ho'', hnext, hheld'⟩ := h o' ho'
    have hlt := hf.lt_of_waits hheld hnext
    subst hn
    exact ih _ (countP_lt_countP hlt (hf.mem_ids hheld')) o' ho' next hnext rfl

end

/--
However owners come to share the table of locks, no set of them waits for each other in a circle, and no lock has
two owners.
-/
theorem reached_not_deadlocked (acts : List Act) :
    let f := reached acts
    (∀ S : Owner → Prop, (∃ o, S o) →
      ¬∀ o, S o → ∃ o' key, S o' ∧ o' ≠ o ∧ f.Waits o key ∧ f.Holds o' key) ∧
    (∀ key o o', f.Holds o key → f.Holds o' key → o = o') ∧
    (∀ key o, f.table.owner? key = some o ↔ f.Holds o key) := by
  intro f
  have hf : f.IsOrderly := isOrderly_reached acts
  refine ⟨?_, ?_, hf.holds⟩
  . rintro S ⟨o, ho⟩ hcircle
    apply hf.not_circular _ o ho
    intro o ho
    obtain ⟨o', key, ho', -, hw, hh⟩ := hcircle o ho
    exact ⟨o', key, ho', hw, hh⟩
  . intro key o o' hh hh'
    have howner := (hf.holds key o).mpr hh
    rw [(hf.holds key o').mpr hh', Option.some.injEq] at howner
    exact howner.symm

example :
    -- Two owners archive the same entry at once, and the second waits for the first.
    let e : Entry := ⟨1, 4, 7, 1, .active, ⟨0⟩, ⟨0⟩, none, none, none, none, none⟩
    let s : Store := { Store.empty with entries := [e] }
    let k : Command := .archive ⟨.null, none, .null⟩ (.int 1) .null
    let f := reached [.begins .service k s, .begins (.other "import") k s, .takes .service, .takes (.other "import")]
    f.Waits (.other "import") (.entry (.int 4) (.int 7)) ∧ f.Holds .service (.entry (.int 4) (.int 7)) := by
  decide +kernel

/-- As long as anybody waits, somebody who has a lock that is waited for does not wait, and can go on. -/
theorem exists_holder_not_waiting (acts : List Act) {o : Owner} {key : LockKey} (h : (reached acts).Waits o key) :
    ∃ o' o'' k, (reached acts).Waits o' k ∧ (reached acts).Holds o'' k ∧ ∀ k', ¬(reached acts).Waits o'' k' := by
  have hf := isOrderly_reached acts
  by_contra hnone
  push Not at hnone
  apply hf.not_circular (S := fun o => ∃ k, (reached acts).Waits o k) _ o ⟨key, h⟩
  rintro o ⟨k, hw⟩
  obtain ⟨o', -, hh⟩ := hf.exists_holder hw
  exact ⟨o', k, hnone o o' k hw hh, hw, hh⟩

end Floor

end StageGate
