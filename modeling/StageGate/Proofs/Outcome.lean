import StageGate.Service

/-!
This module contains how computations, transactions and operations end. What is said about an end covers
both cases: an answer with what it leaves behind, and a fault, which never is that two active entries of a
lead met in a pipeline.
-/

namespace StageGate

/-! ## Faults -/

/-- A fault that does not come from two active entries of a lead in a pipeline. -/
def Fault.IsClear (e : Fault) : Prop :=
  e.constraint? ≠ some Store.collision

@[simp]
theorem Fault.isClear_refused {r : Refusal} (h : ∀ l p e c, r ≠ .alreadyEnrolled l p e (some c)) :
    Fault.IsClear (.refused r) := by
  unfold IsClear
  cases r with
  | alreadyEnrolled l p e c =>
    cases c with
    | none => simp [constraint?]
    | some c => exact absurd rfl (h l p e c)
  | _ => simp [constraint?]

@[simp]
theorem Fault.isClear_broken {b : Breakdown} (h : b ≠ .violated Store.collision) :
    Fault.IsClear (.broken b) := by
  unfold IsClear
  cases b with
  | violated c => simpa [constraint?] using h
  | _ => simp [constraint?]

@[simp]
theorem Fault.isClear_violated {c : String} :
    Fault.IsClear (.broken (.violated c)) ↔ c ≠ Store.collision := by
  simp [IsClear, constraint?]

/--
A fault that comes from the values of a computation: it breaks down, or finds something misconfigured. No
operation turns anything down with it.
-/
def Fault.IsPlain : Fault → Prop
  | .refused (.misconfigured ..) => True
  | .refused _ | .broken (.violated _) => False
  | .broken _ => True

@[simp]
theorem Fault.isPlain_misconfigured {reason path : String} {details : Fields} :
    Fault.IsPlain (.refused (.misconfigured reason path details)) :=
  trivial

@[simp]
theorem Fault.isPlain_broken {b : Breakdown} (h : ∀ c, b ≠ .violated c) : Fault.IsPlain (.broken b) := by
  cases b with
  | violated c => exact absurd rfl (h c)
  | _ => trivial

theorem Fault.IsPlain.isClear {e : Fault} (h : e.IsPlain) : e.IsClear := by
  cases e with
  | refused r =>
    cases r with
    | misconfigured => simp
    | _ => cases h
  | broken b =>
    cases b with
    | violated => cases h
    | _ => simp

/-! ## Computations -/

theorem bind_eq_ok {α β : Type} {x : Except Fault α} {f : α → Except Fault β} {b : β} :
    x >>= f = .ok b ↔ ∃ a, x = .ok a ∧ f a = .ok b := by
  cases x <;> simp [bind, Except.bind]

theorem ok_bind {α β : Type} (a : α) (f : α → Except Fault β) : (Except.ok a >>= f) = f a :=
  rfl

theorem map_eq_ok {ε α β : Type} {x : Except ε α} {f : α → β} {b : β} :
    x.map f = .ok b ↔ ∃ a, x = .ok a ∧ f a = b := by
  cases x <;> simp [Except.map]

theorem exists_of_isOk {α : Type} {x : Except Fault α} (h : x.isOk) : ∃ a, x = .ok a := by
  cases x with
  | ok a => exact ⟨a, rfl⟩
  | error e => cases h

theorem forM_eq_ok {α : Type} {f : α → Except Fault Unit} {as : List α} :
    as.forM f = .ok () ↔ ∀ a ∈ as, f a = .ok () := by
  induction as with
  | nil => exact ⟨fun _ _ ha => (List.not_mem_nil ha).elim, fun _ => rfl⟩
  | cons a as ih =>
    rw [List.forM_eq_forM] at ih ⊢
    rw [List.forM_cons, bind_eq_ok, List.forall_mem_cons, ← ih]
    exact ⟨fun ⟨_, ha, has⟩ => ⟨ha, has⟩, fun ⟨ha, has⟩ => ⟨_, ha, has⟩⟩

theorem mapM_eq_ok_map {α β : Type} {f : α → Except Fault β} {g : α → β} {as : List α}
    (h : ∀ a ∈ as, f a = .ok (g a)) : as.mapM f = .ok (as.map g) := by
  induction as with
  | nil => rfl
  | cons a as ih =>
    simp only [List.mem_cons, forall_eq_or_imp] at h
    rw [List.mapM_cons, h.1, ih h.2]
    rfl

theorem mem_iff_of_mapM_eq_ok {α β : Type} {f : α → Except Fault β} {as : List α} {bs : List β}
    (h : as.mapM f = .ok bs) {b : β} : b ∈ bs ↔ ∃ a ∈ as, f a = .ok b := by
  induction as generalizing bs with
  | nil =>
    cases h
    simp
  | cons a as ih =>
    rw [List.mapM_cons] at h
    simp only [bind_eq_ok, pure, Except.pure, Except.ok.injEq] at h
    obtain ⟨c, hc, cs, hcs, rfl⟩ := h
    rw [List.mem_cons, ih hcs]
    simp only [List.mem_cons, exists_eq_or_imp, hc, Except.ok.injEq]
    grind

theorem length_of_mapM_eq_ok {α β : Type} {f : α → Except Fault β} {as : List α} {bs : List β}
    (h : as.mapM f = .ok bs) : as.length = bs.length := by
  induction as generalizing bs with
  | nil =>
    cases h
    rfl
  | cons a as ih =>
    rw [List.mapM_cons] at h
    simp only [bind_eq_ok, pure, Except.pure, Except.ok.injEq] at h
    obtain ⟨c, -, cs, hcs, rfl⟩ := h
    rw [List.length_cons, List.length_cons, ih hcs]

theorem exists_mapM {α β : Type} {f : α → Except Fault β} {as : List α} (h : ∀ a ∈ as, ∃ b, f a = .ok b) :
    ∃ bs, as.mapM f = .ok bs := by
  induction as with
  | nil => exact ⟨[], rfl⟩
  | cons a as ih =>
    rw [List.forall_mem_cons] at h
    obtain ⟨b, hb⟩ := h.1
    obtain ⟨bs, hbs⟩ := ih h.2
    exact ⟨b :: bs, by simp [List.mapM_cons, hb, hbs, bind, Except.bind, pure, Except.pure]⟩

theorem exists_of_mapM_eq_ok {α β : Type} {f : α → Except Fault β} {as : List α} {bs : List β}
    (h : as.mapM f = .ok bs) {a : α} (ha : a ∈ as) : ∃ b ∈ bs, f a = .ok b := by
  induction as generalizing bs with
  | nil => cases ha
  | cons x xs ih =>
    rw [List.mapM_cons] at h
    simp only [bind_eq_ok, pure, Except.pure, Except.ok.injEq] at h
    obtain ⟨b, hb, bs, hbs, rfl⟩ := h
    rw [List.mem_cons] at ha
    rcases ha with rfl | ha
    . exact ⟨b, by simp, hb⟩
    . obtain ⟨y, hy, hfy⟩ := ih hbs ha
      exact ⟨y, by simp [hy], hfy⟩

/-- What is computed of the elements one by one is computed of others, if it is so of each. -/
theorem mapM_of_mapM {α α' β β' : Type} {f : α → Except Fault β} {f' : α' → Except Fault β'} {g : α → α'} {g' : β → β'}
    {as : List α} {bs : List β} (h : as.mapM f = .ok bs) (hf : ∀ a ∈ as, ∀ b ∈ bs, f a = .ok b → f' (g a) = .ok (g' b)) :
    (as.map g).mapM f' = .ok (bs.map g') := by
  induction as generalizing bs with
  | nil =>
    cases h
    rfl
  | cons a as ih =>
    rw [List.mapM_cons] at h
    simp only [bind_eq_ok, pure, Except.pure, Except.ok.injEq] at h
    obtain ⟨b, hb, rest, hrest, rfl⟩ := h
    have hrest' := ih hrest fun x hx y hy => hf x (by simp [hx]) y (by simp [hy])
    rw [List.map_cons, List.mapM_cons, hf a (by simp) b (by simp) hb, hrest']
    rfl

theorem mapM_perm {α β : Type} {f : α → Except Fault β} {as as' : List α} {bs : List β} (h : as.Perm as')
    (hbs : as.mapM f = .ok bs) : ∃ bs', as'.mapM f = .ok bs' ∧ bs.Perm bs' := by
  induction h generalizing bs with
  | nil => exact ⟨bs, hbs, .refl bs⟩
  | cons a _ ih =>
    simp only [List.mapM_cons, bind_eq_ok, pure, Except.pure, Except.ok.injEq] at hbs ⊢
    obtain ⟨b, hb, rest, hrest, rfl⟩ := hbs
    obtain ⟨rest', hrest', hperm⟩ := ih hrest
    exact ⟨b :: rest', ⟨b, hb, rest', hrest', rfl⟩, hperm.cons b⟩
  | swap a a' _ =>
    simp only [List.mapM_cons, bind_eq_ok, pure, Except.pure, Except.ok.injEq] at hbs ⊢
    obtain ⟨b', hb', _, ⟨b, hb, rest, hrest, rfl⟩, rfl⟩ := hbs
    exact ⟨b :: b' :: rest, ⟨b, hb, _, ⟨b', hb', rest, hrest, rfl⟩, rfl⟩, List.Perm.swap b b' rest⟩
  | trans _ _ ih ih' =>
    obtain ⟨bs', hbs', hperm⟩ := ih hbs
    obtain ⟨bs'', hbs'', hperm'⟩ := ih' hbs'
    exact ⟨bs'', hbs'', hperm.trans hperm'⟩

theorem mapM_eq_error {α β : Type} {f : α → Except Fault β} {p : α → Bool} {as : List α} {a : α} {e : Fault}
    (hfirst : as.find? p = some a) (hok : ∀ x ∈ as, ¬p x → ∃ b, f x = .ok b) (ha : f a = .error e) :
    as.mapM f = .error e := by
  induction as with
  | nil => simp at hfirst
  | cons x as ih =>
    simp only [List.mem_cons, forall_eq_or_imp] at hok
    rw [List.mapM_cons]
    cases hp : p x with
    | true =>
      rw [List.find?_cons_of_pos hp, Option.some.injEq] at hfirst
      rw [hfirst, ha]
      rfl
    | false =>
      have hp : ¬p x := by simp [hp]
      rw [List.find?_cons_of_neg hp] at hfirst
      obtain ⟨b, hb⟩ := hok.1 hp
      rw [hb, ih hfirst hok.2]
      rfl

/-- A computation that answers, or ends in a fault of which `P` holds. -/
def Ends {α : Type} (P : Fault → Prop) (x : Except Fault α) : Prop :=
  ∀ e, x = .error e → P e

abbrev Clear {α : Type} (x : Except Fault α) : Prop :=
  Ends Fault.IsClear x

abbrev Plain {α : Type} (x : Except Fault α) : Prop :=
  Ends Fault.IsPlain x

section

variable {α β : Type} {P : Fault → Prop}

@[simp]
theorem ends_ok (a : α) : Ends P (.ok a) := by
  intro e h
  cases h

@[simp]
theorem ends_pure (a : α) : Ends P (pure a : Except Fault α) :=
  ends_ok a

@[simp]
theorem ends_error {e : Fault} : Ends P (.error e : Except Fault α) ↔ P e := by
  simp [Ends]

@[simp]
theorem ends_throw {e : Fault} : Ends P (throw e : Except Fault α) ↔ P e :=
  ends_error

@[simp]
theorem ends_bind {x : Except Fault α} {f : α → Except Fault β} :
    Ends P (x >>= f) ↔ Ends P x ∧ ∀ a, x = .ok a → Ends P (f a) := by
  cases x <;> simp [bind, Except.bind]

@[simp]
theorem ends_map {x : Except Fault α} {f : α → β} : Ends P (x.map f) ↔ Ends P x := by
  cases x <;> simp [Except.map]

@[simp]
theorem ends_functor_map {x : Except Fault α} {f : α → β} : Ends P (f <$> x) ↔ Ends P x :=
  ends_map

@[simp]
theorem ends_ite {p : Prop} [Decidable p] {x y : Except Fault α} :
    Ends P (if p then x else y) ↔ (p → Ends P x) ∧ (¬p → Ends P y) := by
  split <;> simp_all

theorem ends_mapM {f : α → Except Fault β} {as : List α} (h : ∀ a ∈ as, Ends P (f a)) :
    Ends P (as.mapM f) := by
  induction as with
  | nil => simp
  | cons a as ih =>
    rw [List.mapM_cons]
    simp only [ends_bind, ends_pure, implies_true, and_true]
    constructor
    . exact h a (by simp)
    . intros
      exact ih fun a ha => h a (by simp [ha])

theorem ends_foldlM {f : β → α → Except Fault β} {as : List α} (h : ∀ b a, Ends P (f b a)) (b : β) :
    Ends P (as.foldlM f b) := by
  induction as generalizing b with
  | nil => simp
  | cons a as ih =>
    rw [List.foldlM_cons, ends_bind]
    constructor
    . exact h b a
    . intro b' _
      exact ih b'

theorem ends_forM {f : α → Except Fault PUnit} {as : List α} (h : ∀ a ∈ as, Ends P (f a)) :
    Ends P (forM as f) := by
  induction as with
  | nil => simp
  | cons a as ih =>
    rw [List.forM_cons, ends_bind]
    constructor
    . exact h a (by simp)
    . intros
      exact ih fun a ha => h a (by simp [ha])

-- Where nothing else is known of a computation, it is clear because it is plain.
@[simp low]
theorem clear_of_plain {x : Except Fault α} (h : Plain x) : Clear x := by
  intro e he
  exact (h e he).isClear

end

/-! ## Transactions -/

namespace Transaction

section

variable {α β : Type} {s : Store} {post : α → Store → Prop}

/-- A transaction that leads from a store to an answer and a store as `post` says, or ends in a clear fault. -/
def Leads (t : Transaction α) (s : Store) (post : α → Store → Prop) : Prop :=
  match t s with
  | .ok (a, s') => post a s'
  | .error e => e.IsClear

@[simp]
theorem leads_pure (a : α) : Leads (pure a) s post ↔ post a s :=
  Iff.rfl

@[simp]
theorem leads_bind {t : Transaction β} {f : β → Transaction α} :
    Leads (t >>= f) s post ↔ Leads t s fun b s' => Leads (f b) s' post := by
  simp only [Leads, bind, StateT.bind, Except.bind]
  cases t s <;> rfl

@[simp]
theorem leads_get {post : Store → Store → Prop} : Leads get s post ↔ post s s :=
  Iff.rfl

@[simp]
theorem leads_set {s' : Store} {post : PUnit → Store → Prop} : Leads (set s') s post ↔ post ⟨⟩ s' :=
  Iff.rfl

@[simp]
theorem leads_modify {f : Store → Store} {post : PUnit → Store → Prop} :
    Leads (modify f) s post ↔ post ⟨⟩ (f s) :=
  Iff.rfl

@[simp]
theorem leads_throw {e : Fault} : Leads (throw e) s post ↔ e.IsClear :=
  Iff.rfl

theorem leads_lift {x : Except Fault α} :
    Leads (liftM x) s post ↔ Clear x ∧ ∀ a, x = .ok a → post a s := by
  cases x <;> simp [Leads, liftM, monadLift, MonadLift.monadLift, StateT.lift, bind, Except.bind, pure,
    Except.pure]

theorem leads_reading {f : Store → Except Fault α} :
    Leads (reading f) s post ↔ Clear (f s) ∧ ∀ a, f s = .ok a → post a s := by
  unfold reading
  rw [leads_bind, leads_get, leads_lift]

theorem Leads.mono {t : Transaction α} {post' : α → Store → Prop} (h : Leads t s post)
    (himp : ∀ a s', post a s' → post' a s') : Leads t s post' := by
  unfold Leads at *
  split
  . next ht =>
    rw [ht] at h
    exact himp _ _ h
  . next ht =>
    rw [ht] at h
    exact h

theorem Leads.of_ok {t : Transaction α} {a : α} {s' : Store} (h : Leads t s post) (ht : t s = .ok (a, s')) :
    post a s' := by
  unfold Leads at h
  rwa [ht] at h

theorem Leads.bind {t : Transaction β} {f : β → Transaction α} {mid : β → Store → Prop} (h : Leads t s mid)
    (hf : ∀ b s', mid b s' → Leads (f b) s' post) : Leads (t >>= f) s post := by
  rw [leads_bind]
  exact h.mono hf

theorem leads_lift_bind {x : Except Fault β} {f : β → Transaction α} (hx : Clear x)
    (hf : ∀ b, x = .ok b → Leads (f b) s post) : Leads (liftM x >>= f) s post := by
  rw [leads_bind, leads_lift]
  exact ⟨hx, hf⟩

theorem leads_reading_bind {g : Store → Except Fault β} {f : β → Transaction α} (hg : Clear (g s))
    (hf : ∀ b, g s = .ok b → Leads (f b) s post) : Leads (reading g >>= f) s post := by
  rw [leads_bind, leads_reading]
  exact ⟨hg, hf⟩

theorem leads_demand {holds : Bool} {e : Fault} {post : Unit → Store → Prop} :
    Leads (demand holds e) s post ↔ if holds then post () s else e.IsClear := by
  cases holds <;> simp [demand]

theorem leads_refusingViolations {t : Transaction α} {refusal : String → Refusal}
    (hr : ∀ c, (Fault.refused (refusal c)).constraint? = some c) (h : Leads t s post) :
    Leads (refusingViolations refusal t) s post := by
  unfold Leads refusingViolations at *
  cases ht : t s with
  | ok r => simpa [ht] using h
  | error e =>
    rw [ht] at h
    cases e with
    | refused r => exact h
    | broken b =>
      cases b with
      | violated c =>
        have hc : c ≠ Store.collision := by simpa [Fault.IsClear, Fault.constraint?] using h
        simp only [Fault.IsClear, hr]
        simpa using hc
      | _ => exact h

end

end Transaction

/-! ## Operations -/

namespace Operation

section

variable {α β : Type} {s : Service} {base : Store} {post : α → Service → Prop}

theorem bind_of_ok {op : Operation β} {b : β} {s' : Service} (h : op s = (.ok b, s')) (f : β → Operation α) :
    (op >>= f) s = f b s' := by
  simp only [bind, ExceptT.bind, ExceptT.mk, StateT.bind, h]
  rfl

theorem bind_of_error {op : Operation β} {e : Fault} {s' : Service} (h : op s = (.error e, s'))
    (f : β → Operation α) : (op >>= f) s = (.error e, s') := by
  simp only [bind, ExceptT.bind, ExceptT.mk, StateT.bind, h]
  rfl

theorem reading_eq (f : Store → Except Fault α) (s : Service) : reading f s = (f s.store, s) := by
  have hget : (get : Operation Service) s = (.ok s, s) := rfl
  unfold reading
  rw [bind_of_ok hget]
  cases f s.store <;> rfl

theorem commit_eq (t : Transaction α) (s : Service) : commit t s =
    match t s.store with
    | .ok (a, store) => (.ok a, { s with store })
    | .error e => (.error e, s) := by
  have hget : (get : Operation Service) s = (.ok s, s) := rfl
  unfold commit
  rw [bind_of_ok hget, StateT.run]
  cases t s.store <;> rfl

theorem reading_bind_eq (g : Store → Except Fault β) (f : β → Operation α) (s : Service) : (reading g >>= f) s =
    match g s.store with
    | .ok b => f b s
    | .error e => (.error e, s) := by
  have hread := reading_eq g s
  cases h : g s.store <;> rw [h] at hread
  . exact bind_of_error hread f
  . exact bind_of_ok hread f

theorem commit_bind_eq (t : Transaction β) (f : β → Operation α) (s : Service) : (commit t >>= f) s =
    match t s.store with
    | .ok (b, store) => f b { s with store }
    | .error e => (.error e, s) := by
  have hcommit := commit_eq t s
  cases h : t s.store <;> rw [h] at hcommit
  . exact bind_of_error hcommit f
  . exact bind_of_ok hcommit f

/--
An operation that leads to an answer and a service as `post` says, or ends in a clear fault and leaves the
store `base` behind.
-/
def Leads (op : Operation α) (s : Service) (base : Store) (post : α → Service → Prop) : Prop :=
  match op s with
  | (.ok a, s') => post a s'
  | (.error e, s') => s'.store = base ∧ e.IsClear

@[simp]
theorem leads_pure (a : α) : Leads (pure a) s base post ↔ post a s :=
  Iff.rfl

@[simp]
theorem leads_bind {op : Operation β} {f : β → Operation α} :
    Leads (op >>= f) s base post ↔ Leads op s base fun b s' => Leads (f b) s' base post := by
  unfold Leads
  rcases hop : op s with ⟨r, s'⟩
  cases r with
  | ok b => rw [bind_of_ok hop]
  | error e => rw [bind_of_error hop]

@[simp]
theorem leads_map {op : Operation β} {f : β → α} :
    Leads (f <$> op) s base post ↔ Leads op s base fun b s' => post (f b) s' := by
  rw [← bind_pure_comp, leads_bind]
  rfl

@[simp]
theorem leads_get {post : Service → Service → Prop} : Leads get s base post ↔ post s s :=
  Iff.rfl

@[simp]
theorem leads_set {s' : Service} {post : PUnit → Service → Prop} :
    Leads (set s') s base post ↔ post ⟨⟩ s' :=
  Iff.rfl

@[simp]
theorem leads_throw {e : Fault} : Leads (throw e) s base post ↔ s.store = base ∧ e.IsClear :=
  Iff.rfl

theorem leads_reading {f : Store → Except Fault α} (hs : s.store = base) :
    Leads (reading f) s base post ↔ Clear (f s.store) ∧ ∀ a, f s.store = .ok a → post a s := by
  unfold Leads
  rw [reading_eq]
  cases f s.store <;> simp [Clear, hs]

theorem Leads.mono {op : Operation α} {post' : α → Service → Prop} (h : Leads op s base post)
    (himp : ∀ a s', post a s' → post' a s') : Leads op s base post' := by
  unfold Leads at *
  split
  . next ht =>
    rw [ht] at h
    exact himp _ _ h
  . next ht =>
    rw [ht] at h
    exact h

theorem Leads.bind {op : Operation β} {f : β → Operation α} {mid : β → Service → Prop}
    (h : Leads op s base mid) (hf : ∀ b s', mid b s' → Leads (f b) s' base post) :
    Leads (op >>= f) s base post := by
  rw [leads_bind]
  exact h.mono hf

theorem leads_reading_bind {g : Store → Except Fault β} {f : β → Operation α} (hs : s.store = base)
    (hg : Clear (g s.store)) (hf : ∀ b, g s.store = .ok b → Leads (f b) s base post) :
    Leads (reading g >>= f) s base post := by
  rw [leads_bind, leads_reading hs]
  exact ⟨hg, hf⟩

theorem leads_reading_ok {f : Store → Except Fault α} {a : α} (h : f s.store = .ok a) :
    Leads (reading f) s base post ↔ post a s := by
  unfold Leads
  rw [reading_eq, h]

theorem leads_commit {t : Transaction α} (hs : s.store = base) :
    Leads (commit t) s base post ↔ t.Leads s.store fun a store => post a { s with store } := by
  unfold Leads Transaction.Leads
  rw [commit_eq]
  cases t s.store <;> simp [hs]

theorem Leads.commit {t : Transaction α} {post : α → Store → Prop} (h : t.Leads s.store post) :
    Leads (commit t) s s.store fun a s' => post a s'.store := by
  rw [leads_commit rfl]
  exact h

theorem leads_holding {enter : LockTable → Except Fault Unit × LockTable} {release : LockTable → LockTable}
    {body : Operation α} (post : α → Store → Prop) (hs : s.store = base) (ht : ∀ t, Clear (enter t).1)
    (hb : ∀ table, enter s.locks.table = (.ok (), table) →
      Leads body { s with locks := { s.locks with table } } base fun a s' => post a s'.store) :
    Leads (holding enter release body) s base fun a s' => post a s'.store := by
  -- The locks are released after an answer and after a fault, and nothing is said of them.
  unfold Leads holding
  rcases h : enter s.locks.table with ⟨entered, table⟩
  cases entered with
  | error e => exact ⟨hs, ht s.locks.table e (by rw [h])⟩
  | ok _ =>
    have hb := hb table h
    unfold Leads at hb
    dsimp only
    rcases hbody : body { s with locks := { s.locks with table } } with ⟨r, s'⟩
    rw [hbody] at hb
    cases r <;> exact hb

end

end Operation

end StageGate
