import Mathlib.Algebra.Ring.Nat
import StageGate.Proofs.Failures
import StageGate.Proofs.Facts

/-!
This module contains that the summary of the health of a pipeline agrees with the listing of its active entries. What
one entry adds to the tally is what it adds to a count of the listing, in all and in its stage; and what the entries
remember in the end is what was read of them, which leaves nothing to a second summary.
-/

namespace StageGate

/-! ## Readings -/

/-- What is red is overdue, whatever the window. -/
theorem Standing.bucket_eq_red_iff {elapsed deadline : Int} {window : Value} {standing : Standing}
    (h : of (.int elapsed) (.int deadline) window = .ok standing) : standing.bucket = .red ↔ deadline < elapsed := by
  have hlate : 0 < max 0 (elapsed - deadline) ↔ deadline < elapsed := by omega
  unfold of at h
  simp only [Value.sub_int, Value.positivePart_int, Value.lt_int, bind, Except.bind, pure, Except.pure,
    decide_eq_true_eq, hlate] at h
  repeat' split at h
  all_goals cases h
  all_goals simp [*]

theorem Health.bucket_eq_red_iff {entered now : Instant} {deadline : Int} {window : Value} {health : Health}
    (h : of entered now (.int deadline) window = .ok health) :
    health.bucket = .red ↔ deadline < entered.wholeDays now := by
  simp only [of, bind_eq_ok, pure, Except.pure, Except.ok.injEq] at h
  obtain ⟨standing, hstanding, due, -, remaining, -, rfl⟩ := h
  exact Standing.bucket_eq_red_iff hstanding

namespace EntryView

def bucket? (v : EntryView) : Option Bucket :=
  v.health.map (·.bucket)

def overdue? (v : EntryView) : Option Value :=
  v.health.map (·.overdue)

def elapsed? (v : EntryView) : Option Nat :=
  v.health.map (·.elapsed)

/-- Of two entries one is worse, or as bad and there before the other. -/
def Precedes (a b : EntryView) : Prop :=
  ∃ m n : Int, a.overdue? = some (.int m) ∧ b.overdue? = some (.int n) ∧ (n < m ∨ m = n ∧ a.entry.id < b.entry.id)

theorem Precedes.trans (a b c : EntryView) (h : a.Precedes b) (h' : b.Precedes c) : a.Precedes c := by
  obtain ⟨l, m, hl, hm, hlt⟩ := h
  obtain ⟨m', n, hm', hn, hlt'⟩ := h'
  rw [hm, Option.some.injEq, Value.int.injEq] at hm'
  subst hm'
  refine ⟨l, n, hl, hn, ?_⟩
  omega

end EntryView

namespace Reading

/-- What the listing shows of what was read. -/
def view (now : Stamp) (r : Reading) : EntryView :=
  ⟨r.entry, some r.stage.name, some r.health, now⟩

def overdue (r : Reading) : Overdue :=
  ⟨r.entry.id, r.entry.lead, r.entry.stage, r.stage.name, r.health.overdue, r.health.elapsed⟩

/-- A reading in whole days, which is red if and only if it is overdue. -/
def IsPlain (r : Reading) : Prop :=
  ∃ days : Int, r.health.overdue = .int days ∧ (r.health.bucket = .red ↔ 0 < days)

/-- What is read of the entry the next time. -/
def remembered (r : Reading) : Reading :=
  { r with entry := r.entry.remember r.health.bucket }

end Reading

/-! ## What is counted -/

theorem Counts.of_add (c : Counts) (b b' : Bucket) : (c.add b).of b' = c.of b' + if b = b' then 1 else 0 := by
  cases b <;> cases b' <;> rfl

/-- The counts of readings, one bucket after the other. -/
def Counts.ofReadings (rs : List Reading) : Counts :=
  rs.foldl (fun c r => c.add r.health.bucket) .nothing

theorem Counts.of_ofReadings (rs : List Reading) (b : Bucket) :
    (ofReadings rs).of b = rs.countP (·.health.bucket = b) := by
  have hfold (c : Counts) : (rs.foldl (fun c r => c.add r.health.bucket) c).of b =
      c.of b + rs.countP (·.health.bucket = b) := by
    induction rs generalizing c with
    | nil => rfl
    | cons r rs ih =>
      rw [List.foldl_cons, ih, of_add, List.countP_cons]
      simp only [decide_eq_true_eq]
      omega
  refine (hfold .nothing).trans ?_
  cases b <;> exact Nat.zero_add _

namespace Tally

theorem counts_addAll (t : Tally) (rs : List Reading) :
    (t.addAll rs).counts = rs.foldl (fun c r => c.add r.health.bucket) t.counts := by
  induction rs generalizing t with
  | nil => rfl
  | cons r rs ih => exact ih (t.add r.entry r.stage r.health)

theorem days_addAll (t : Tally) (rs : List Reading) :
    (t.addAll rs).days = t.days + (rs.map (·.health.elapsed)).sum := by
  induction rs generalizing t with
  | nil => rfl
  | cons r rs ih =>
    refine (ih (t.add r.entry r.stage r.health)).trans ?_
    simp only [add, List.map_cons, List.sum_cons]
    omega

theorem overdue_addAll (t : Tally) (rs : List Reading) : (t.addAll rs).overdue =
    t.overdue ++ (rs.filter fun r => Value.isBelow (.int 0) r.health.overdue).map Reading.overdue := by
  induction rs generalizing t with
  | nil => simp [addAll]
  | cons r rs ih =>
    refine (ih (t.add r.entry r.stage r.health)).trans ?_
    simp only [add, List.filter_cons]
    split
    . rw [List.append_assoc]
      rfl
    . rfl

end Tally

namespace StageRow

/-- The row of a stage after readings, of which it takes those of its own entries. -/
def ofReadings (rs : List Reading) (stage : Stage) : StageRow :=
  let own := rs.filter (·.entry.stage = stage.id)
  ⟨stage, own.length, .ofReadings own⟩

theorem foldl_add (row : StageRow) (rs : List Reading) :
    rs.foldl (fun row r => row.add r.entry.stage r.health.bucket) row =
      let own := rs.filter (·.entry.stage = row.stage.id)
      ⟨row.stage, row.active + own.length, own.foldl (fun c r => c.add r.health.bucket) row.counts⟩ := by
  induction rs generalizing row with
  | nil => rfl
  | cons r rs ih =>
    rw [List.foldl_cons, ih, List.filter_cons]
    unfold add
    by_cases h : row.stage.id = r.entry.stage
    . simp only [h, ↓reduceIte, decide_true, List.length_cons, List.foldl_cons]
      congr 1
      omega
    . simp only [h, Ne.symm h, ↓reduceIte, decide_false, Bool.false_eq_true]

end StageRow

theorem Tally.rows_addAll (t : Tally) (rs : List Reading) : (t.addAll rs).stages =
    t.stages.map fun row => rs.foldl (fun row r => row.add r.entry.stage r.health.bucket) row := by
  induction rs generalizing t with
  | nil => simp [addAll]
  | cons r rs ih =>
    refine (ih (t.add r.entry r.stage r.health)).trans ?_
    rw [add, List.map_map]
    rfl

/-- What a tally comes to, from nothing: each part of it is about the same readings. -/
theorem Tally.start_addAll (stages : List Stage) (rs : List Reading) : (start stages).addAll rs = {
    counts := .ofReadings rs
    stages := stages.map (StageRow.ofReadings rs)
    overdue := (rs.filter fun r => Value.isBelow (.int 0) r.health.overdue).map Reading.overdue
    days := (rs.map (·.health.elapsed)).sum } := by
  have hrows : ((start stages).addAll rs).stages = stages.map (StageRow.ofReadings rs) := by
    rw [rows_addAll, start, List.map_map]
    apply List.map_congr_left
    intro stage _
    refine (StageRow.foldl_add (.blank stage) rs).trans ?_
    unfold StageRow.blank StageRow.ofReadings
    dsimp only
    rw [Nat.zero_add]
    rfl
  have hdays : ((start stages).addAll rs).days = (rs.map (·.health.elapsed)).sum := by
    rw [days_addAll, start, Nat.zero_add]
  have hcounts : ((start stages).addAll rs).counts = .ofReadings rs := counts_addAll (start stages) rs
  have hoverdue := overdue_addAll (start stages) rs
  rw [← hrows, ← hdays, ← hcounts]
  rw [start, List.nil_append] at hoverdue
  rw [← hoverdue]
  rfl

namespace HealthSummary

/-! ## The document -/

def bucketsOf (views : List EntryView) : Fields :=
  Bucket.all.map fun b => (b.name, .int (views.countP (·.bucket? = some b)))

def stageRowOf (views : List EntryView) (stage : Stage) : Value :=
  let own := views.filter (·.entry.stage = stage.id)
  .object ([("stage_id", .int stage.id), ("name", .text stage.name), ("order", stage.order),
    ("active", .int own.length)] ++ bucketsOf own)

def overdueRowOf (v : EntryView) : Value :=
  .object [("entry_id", .int v.entry.id), ("lead_id", .int v.entry.lead), ("stage_id", .int v.entry.stage),
    ("stage_name", .ofText? v.stageName), ("overdue_days", .ofOption id v.overdue?),
    ("elapsed_days", .ofOption (fun days : Nat => .int days) v.elapsed?)]

def daysOf (views : List EntryView) : Nat :=
  (views.map fun v => v.elapsed?.getD 0).sum

/-- The document of a summary, from the listing of the active entries, the stages, and what is late of the listing. -/
def documentOf (pipeline : Int) (now : Stamp) (views : List EntryView) (stages : List Stage) (late : List EntryView) :
    Value :=
  .object [("pipeline_id", .int pipeline), ("as_of", .text now.text), ("active", .int views.length),
    ("counts", .object (bucketsOf views)), ("by_stage", .list (stages.map (stageRowOf views))),
    ("overdue", .list (late.map overdueRowOf)),
    ("sla_compliance_pct", .float (compliance views.length (views.countP (·.bucket? = some .red)))),
    ("avg_days_in_stage", .float (averageDays views.length (daysOf views)))]

/-- The stages of a pipeline in their order, and what is late of a listing, so that every view is counted once. -/
structure Agrees (s : Store) (pipeline : Int) (views : List EntryView) (stages : List Stage) (late : List EntryView) :
    Prop where
  total : (Bucket.all.map fun b => views.countP (·.bucket? = some b)).sum = views.length
  rows : ∀ stage, stage ∈ stages ↔ stage ∈ s.stages ∧ stage.pipeline = pipeline
  ascending : stages.Pairwise fun a b => a.order.isBelow b.order
  housed : (stages.map fun stage => (views.filter (·.entry.stage = stage.id)).length).sum = views.length
  housedIn : ∀ b, (stages.map fun stage => (views.filter (·.entry.stage = stage.id)).countP (·.bucket? = some b)).sum =
    views.countP (·.bucket? = some b)
  overdue : late.Perm (views.filter (·.bucket? = some .red))
  once : (late.map (·.entry.id)).Nodup
  worstFirst : late.Pairwise EntryView.Precedes

/-- What is overdue of readings, the worst first. -/
def late (rs : List Reading) : List Reading :=
  Listing.inOrder (fun a b => a.overdue.isWorse b.overdue) (rs.filter fun r => Value.isBelow (.int 0) r.health.overdue)

theorem countP_view (now : Stamp) (rs : List Reading) (b : Bucket) :
    (rs.map (·.view now)).countP (·.bucket? = some b) = rs.countP (·.health.bucket = b) := by
  rw [List.countP_map]
  congr 1
  funext r
  simp [Reading.view, EntryView.bucket?]

theorem bucketsOf_map_view (now : Stamp) (rs : List Reading) :
    bucketsOf (rs.map (·.view now)) = (Counts.ofReadings rs).toFields := by
  unfold bucketsOf Counts.toFields
  simp only [countP_view, Counts.of_ofReadings]

theorem stageRowOf_map_view (now : Stamp) (rs : List Reading) (stage : Stage) :
    stageRowOf (rs.map (·.view now)) stage = (StageRow.ofReadings rs stage).toValue := by
  have hown : (rs.map (·.view now)).filter (·.entry.stage = stage.id) =
      (rs.filter (·.entry.stage = stage.id)).map (·.view now) := by
    rw [List.filter_map]
    rfl
  unfold stageRowOf StageRow.toValue
  dsimp only
  rw [hown, bucketsOf_map_view, List.length_map]
  rfl

theorem daysOf_map_view (now : Stamp) (rs : List Reading) :
    daysOf (rs.map (·.view now)) = (rs.map (·.health.elapsed)).sum := by
  unfold daysOf
  rw [List.map_map]
  rfl

theorem bucketsOf_perm {views views' : List EntryView} (h : views.Perm views') : bucketsOf views = bucketsOf views' := by
  unfold bucketsOf
  simp only [h.countP_eq]

theorem stageRowOf_perm {views views' : List EntryView} (h : views.Perm views') : stageRowOf views = stageRowOf views' := by
  funext stage
  have hown := h.filter (·.entry.stage = stage.id)
  unfold stageRowOf
  dsimp only
  rw [hown.length_eq, bucketsOf_perm hown]

/-- The document does not depend on the order of the listing. -/
theorem documentOf_perm {views views' : List EntryView} (h : views.Perm views') (pipeline : Int) (now : Stamp)
    (stages : List Stage) (late : List EntryView) :
    documentOf pipeline now views stages late = documentOf pipeline now views' stages late := by
  have hdays : daysOf views = daysOf views' := (h.map _).sum_nat
  unfold documentOf
  rw [h.length_eq, bucketsOf_perm h, stageRowOf_perm h, h.countP_eq, hdays]

theorem toValue_ofReadings (pipeline : Int) (now : Stamp) (stages : List Stage) (rs : List Reading) :
    (ofReadings pipeline now stages rs).toValue =
      documentOf pipeline now (rs.map (·.view now)) stages ((late rs).map (·.view now)) := by
  have hoverdue : (late rs).map Reading.overdue = Listing.inOrder Overdue.isWorse
      ((rs.filter fun r => Value.isBelow (.int 0) r.health.overdue).map Reading.overdue) :=
    (Listing.inOrder_map Reading.overdue _).symm
  have hrows : stages.map (stageRowOf (rs.map (·.view now))) = (stages.map (StageRow.ofReadings rs)).map StageRow.toValue := by
    rw [List.map_map]
    exact List.map_congr_left fun stage _ => stageRowOf_map_view now rs stage
  have hlate : ((late rs).map (·.view now)).map overdueRowOf = ((late rs).map Reading.overdue).map Overdue.toValue := by
    rw [List.map_map, List.map_map]
    rfl
  have hred : (Counts.ofReadings rs).red = rs.countP (·.health.bucket = .red) := Counts.of_ofReadings rs .red
  unfold toValue ofReadings documentOf
  dsimp only
  rw [Tally.start_addAll, hlate, hoverdue, hrows, bucketsOf_map_view, countP_view, daysOf_map_view, List.length_map, ← hred]

/-! ## What is read -/

variable {window : Value} {now : Stamp} {t : Instant} {pipeline : Int} {s s' s'' : Store} {rs : List Reading}

/-- What is read depends on the instant only. -/
theorem read_of_instant (hnow : now.instant = .ok t) (window : Value) (s : Store) :
    read window now s = read window t s := by
  unfold read
  rw [hnow, Stamp.instant_universal]

theorem readActive_of_instant (hnow : now.instant = .ok t) (window : Value) (pipeline : Int) (s : Store) :
    readActive window now pipeline s = readActive window t pipeline s := by
  unfold readActive
  rw [read_of_instant hnow]

theorem refresh_of_instant (hnow : now.instant = .ok t) (window name : Value) :
    refresh window name now = refresh window name t := by
  funext s
  simp only [refresh_eq, readActive_of_instant hnow]

theorem of_read {e : Entry} {r : Reading} (h : read window t s e = .ok r) : r.entry = e ∧
    s.stage? e.stage = some r.stage ∧ Health.of e.enteredAt t r.stage.deadline window = .ok r.health := by
  rw [read_universal] at h
  simp only [bind_eq_ok, Store.follow_eq_ok, pure, Except.pure, Except.ok.injEq] at h
  obtain ⟨stage, hstage, health, hhealth, rfl⟩ := h
  exact ⟨rfl, hstage, hhealth⟩

theorem exists_reading (h : readActive window t pipeline s = .ok rs) {e : Entry} (he : e ∈ s.entries)
    (hp : e.pipeline = pipeline) (hactive : e.isActive) : ∃ r ∈ rs, r.entry = e := by
  have hmem : e ∈ s.entries.filter fun e => e.pipeline = pipeline && e.isActive := by
    rw [List.mem_filter]
    simp [he, hp, hactive]
  obtain ⟨r, hr, hread⟩ := exists_of_mapM_eq_ok h hmem
  exact ⟨r, hr, (of_read hread).1⟩

theorem isPlain_of_read {e : Entry} {r : Reading} (hk : s.IsConsistent) (h : read window t s e = .ok r) :
    r.IsPlain := by
  obtain ⟨-, hstage, hhealth⟩ := of_read h
  have hdeadline := hk.deadlines r.stage (List.mem_of_find?_eq_some hstage)
  cases hd : r.stage.deadline with
  | int deadline =>
    rw [hd] at hhealth
    refine ⟨_, ((Health.days_of hhealth).2 deadline rfl).1, ?_⟩
    rw [Health.bucket_eq_red_iff hhealth]
    omega
  | _ => simp [hd, Value.isDeadline] at hdeadline

theorem view_of_read {e : Entry} {r : Reading} (hnow : now.instant = .ok t) (hactive : e.isActive)
    (h : read window t s e = .ok r) : s.view window now e = .ok (r.view now) := by
  obtain ⟨rfl, hstage, hhealth⟩ := of_read h
  unfold Store.view Store.healthAt
  rw [if_pos hactive, hstage, hnow]
  simp only [Store.healthOf, hstage, Store.follow, bind, Except.bind, hhealth]
  rfl

/-- What is read of the active entries is what is listed of them, in another order. -/
theorem exists_views_of_readActive (hnow : now.instant = .ok t) (h : readActive window t pipeline s = .ok rs) :
    ∃ views, (s.activeEntries pipeline).mapM (s.view window now) = .ok views ∧ (rs.map (·.view now)).Perm views := by
  have hviews : ((s.entries.filter fun e => e.pipeline = pipeline && e.isActive).map id).mapM (s.view window now) =
      .ok (rs.map (·.view now)) := by
    apply mapM_of_mapM h
    intro e he r _ hr
    rw [List.mem_filter, Bool.and_eq_true] at he
    exact view_of_read hnow he.2.2 hr
  rw [List.map_id] at hviews
  exact mapM_perm (Listing.inOrder_perm _).symm hviews

/-! ## Counting -/

theorem sum_buckets (rs : List Reading) : (Bucket.all.map fun b => rs.countP (·.health.bucket = b)).sum = rs.length := by
  induction rs with
  | nil => rfl
  | cons r rs ih =>
    simp only [Bucket.all, List.map_cons, List.map_nil, List.sum_cons, List.sum_nil, List.countP_cons,
      List.length_cons] at ih ⊢
    cases r.health.bucket <;> simp <;> omega

/-- Every view is counted in one stage, if its entry is in one of them. -/
theorem sum_inStage {stages : List Stage} {views : List EntryView} (hids : (stages.map (·.id)).Nodup)
    (hviews : ∀ v ∈ views, v.entry.stage ∈ stages.map (·.id)) (p : EntryView → Bool) :
    (stages.map fun stage => (views.filter (·.entry.stage = stage.id)).countP p).sum = views.countP p := by
  -- By induction on the stages: what is in the first one is counted in no other.
  induction stages generalizing views with
  | nil =>
    cases views with
    | nil => rfl
    | cons v views => cases hviews v (by simp)
  | cons stage stages ih =>
    rw [List.map_cons, List.nodup_cons] at hids
    have hothers : ∀ v ∈ views.filter (fun v => !decide (v.entry.stage = stage.id)),
        v.entry.stage ∈ stages.map (·.id) := by
      intro v hv
      obtain ⟨hv, hne⟩ := List.mem_filter.mp hv
      rw [Bool.not_eq_true', decide_eq_false_iff_not] at hne
      exact (List.mem_cons.mp (hviews v hv)).resolve_left hne
    rw [List.map_cons, List.sum_cons, List.countP_eq_countP_filter_add views p (·.entry.stage = stage.id),
      ← ih hids.2 hothers]
    congr 2
    apply List.map_congr_left
    intro other hother
    rw [List.filter_filter]
    congr 1
    apply List.filter_congr
    intro v _
    by_cases hv : v.entry.stage = other.id
    . have hne : other.id ≠ stage.id := fun h => hids.1 (h ▸ List.mem_map_of_mem hother)
      simp [hv, hne]
    . simp [hv]

/-! ## What is overdue -/

theorem late_perm (hplain : ∀ r ∈ rs, r.IsPlain) : (late rs).Perm (rs.filter (·.health.bucket = .red)) := by
  have hfilter : (rs.filter fun r => Value.isBelow (.int 0) r.health.overdue) = rs.filter (·.health.bucket = .red) := by
    apply List.filter_congr
    intro r hr
    obtain ⟨days, hdays, hred⟩ := hplain r hr
    rw [hdays, Value.isBelow_int, decide_eq_decide]
    exact hred.symm
  unfold late
  rw [hfilter]
  exact Listing.inOrder_perm _

theorem pairwise_late (hids : (rs.map (·.entry.id)).Pairwise (· < ·)) (hplain : ∀ r ∈ rs, r.IsPlain) (now : Stamp) :
    ((late rs).map (·.view now)).Pairwise EntryView.Precedes := by
  rw [List.pairwise_map]
  apply Listing.pairwise_inOrder fun a b c => EntryView.Precedes.trans (a.view now) (b.view now) (c.view now)
  rw [List.pairwise_map] at hids
  apply (hids.sublist List.filter_sublist).imp_of_mem
  intro a b ha hb hlt
  obtain ⟨m, hm, -⟩ := hplain a (List.mem_of_mem_filter ha)
  obtain ⟨n, hn, -⟩ := hplain b (List.mem_of_mem_filter hb)
  have hma : (a.view now).overdue? = some (.int m) := congrArg some hm
  have hnb : (b.view now).overdue? = some (.int n) := congrArg some hn
  simp only [Overdue.isWorse, Reading.overdue, hm, hn, Value.isBelow_int, Bool.or_eq_true, Bool.and_eq_true,
    Bool.not_eq_true', decide_eq_true_eq, decide_eq_false_iff_not]
  split
  . refine ⟨m, n, hma, hnb, ?_⟩
    change n < m ∨ m = n ∧ a.entry.id < b.entry.id
    omega
  . refine ⟨n, m, hnb, hma, ?_⟩
    change m < n ∨ n = m ∧ b.entry.id < a.entry.id
    omega

theorem ascending_stagesOf (hcounted : s.IsCounted) (pipeline : Int) :
    (s.stagesOf pipeline).Pairwise fun a b => a.order.isBelow b.order := by
  rw [hcounted.stagesOf_eq]
  have hpairwise := (hcounted pipeline).pairwise
  rw [List.pairwise_map] at hpairwise
  apply hpairwise.imp
  rintro x y ⟨m, n, hlt, hx, hy⟩
  rw [hx.stands.isBelow_iff hy.stands]
  omega

theorem agrees {views : List EntryView} (hs : s.IsSound) (hk : s.IsConsistent) (hcounted : s.IsCounted)
    (hrs : readActive window t pipeline s = .ok rs) (hviews : (rs.map (·.view now)).Perm views) :
    Agrees s pipeline views (s.stagesOf pipeline) ((late rs).map (·.view now)) := by
  have hplain : ∀ r ∈ rs, r.IsPlain := by
    intro r hr
    obtain ⟨e, -, hread⟩ := (mem_iff_of_mapM_eq_ok hrs).mp hr
    exact isPlain_of_read hk hread
  have hids := ids_of_readActive hs hrs
  have hmem : ∀ stage, stage ∈ s.stagesOf pipeline ↔ stage ∈ s.stages ∧ stage.pipeline = pipeline := by
    simp [Store.stagesOf]
  have hstageIds : ((s.stagesOf pipeline).map (·.id)).Nodup := by
    have hfilter : ((s.stages.filter (·.pipeline = pipeline)).map (·.id)).Nodup :=
      (hs.stageIds.sublist (List.filter_sublist.map _)).imp fun h => Int.ne_of_lt h
    exact (((Listing.inOrder_perm _).map _).nodup_iff).mpr hfilter
  have hhoused : ∀ v ∈ views, v.entry.stage ∈ (s.stagesOf pipeline).map (·.id) := by
    intro v hv
    obtain ⟨r, hr, rfl⟩ := List.mem_map.mp (hviews.mem_iff.mpr hv)
    obtain ⟨he, hp, -⟩ := mem_of_readActive hrs hr
    obtain ⟨stage, hstage, hid, hhome⟩ := hs.housed r.entry he
    change r.entry.stage ∈ _
    rw [← hid]
    exact List.mem_map_of_mem ((hmem stage).mpr ⟨hstage, hhome.trans hp⟩)
  have hlate := late_perm hplain
  constructor
  case total =>
    simp only [← hviews.countP_eq, countP_view, ← hviews.length_eq, List.length_map]
    exact sum_buckets rs
  case rows => exact hmem
  case ascending => exact ascending_stagesOf hcounted pipeline
  case housed =>
    have hsum := sum_inStage hstageIds hhoused fun _ => true
    simpa using hsum
  case housedIn => exact fun b => sum_inStage hstageIds hhoused (·.bucket? = some b)
  case overdue =>
    have hred : (rs.map (·.view now)).filter (·.bucket? = some .red) =
        (rs.filter (·.health.bucket = .red)).map (·.view now) := by
      rw [List.filter_map]
      congr 2
      funext r
      simp [Reading.view, EntryView.bucket?]
    have hfilter := hviews.filter (·.bucket? = some .red)
    rw [hred] at hfilter
    exact (hlate.map _).trans hfilter
  case once =>
    have hred : ((rs.filter (·.health.bucket = .red)).map (·.entry.id)).Nodup :=
      (hids.sublist (List.filter_sublist.map _)).imp fun h => Int.ne_of_lt h
    rw [List.map_map]
    exact ((hlate.map _).nodup_iff).mpr hred
  case worstFirst => exact pairwise_late hids hplain now

/-! ## Refreshing -/

/-- A summary does not tell what the entries remember. -/
theorem ofReadings_remembered (pipeline : Int) (now : Stamp) (stages : List Stage) (rs : List Reading) :
    ofReadings pipeline now stages (rs.map Reading.remembered) = ofReadings pipeline now stages rs := by
  have htally (t : Tally) : t.addAll (rs.map Reading.remembered) = t.addAll rs := by
    unfold Tally.addAll
    rw [List.foldl_map]
    rfl
  unfold ofReadings
  rw [htally, List.length_map]

theorem IsRefreshed.stagesOf_eq (h : IsRefreshed pipeline s s') (p : Int) : s'.stagesOf p = s.stagesOf p := by
  obtain ⟨f, rfl, -⟩ := h
  rfl

/-- What is read of a store when it is refreshed, and the store that is left. -/
structure Refreshes (window : Value) (now : Instant) (pipeline : Int) (s : Store) (rs : List Reading) (s' : Store) :
    Prop where
  read : readActive window now pipeline s = .ok rs
  refreshed : IsRefreshed pipeline s s'
  remembered : ∀ r ∈ rs, ∀ x ∈ s'.entries, x.id = r.entry.id → x = r.entry.remember r.health.bucket

theorem remembered_of_remembering (hids : (rs.map (·.entry.id)).Pairwise (· < ·)) (s : Store) :
    ∀ r ∈ rs, ∀ x ∈ (s.remembering rs).entries, x.id = r.entry.id → x = r.entry.remember r.health.bucket := by
  induction rs generalizing s with
  | nil => simp
  | cons r rs ih =>
    rw [List.map_cons, List.pairwise_cons] at hids
    rw [List.forall_mem_cons]
    refine ⟨?_, ih hids.2 _⟩
    change ∀ x ∈ ((s.putEntry (r.entry.remember r.health.bucket)).remembering rs).entries, _
    -- The entry is not put again, since those that follow have other ids.
    refine Store.preserved_remembering (I := fun s => ∀ x ∈ s.entries, x.id = r.entry.id →
      x = r.entry.remember r.health.bucket) ?_ ?_
    . intro y hy s₂ hs₂ x hx hid
      rcases Store.mem_putEntry hx with rfl | ⟨hx, -⟩
      . have := hids.1 y.entry.id (List.mem_map_of_mem hy)
        change y.entry.id = r.entry.id at hid
        omega
      . exact hs₂ x hx hid
    . intro x hx hid
      rcases Store.mem_putEntry hx with rfl | ⟨-, hne⟩
      . rfl
      . exact absurd hid hne

theorem exists_refresh {name : Value} {p : Pipeline} (hs : s.IsSound) (hk : s.IsConsistent) (ht : s.IsTimely)
    (hw : window.isNumber) (hp : s.pipeline name = .ok p) (t : Instant) :
    ∃ rs s', refresh window name t s = .ok ((p.id, rs), s') ∧ Refreshes window t p.id s rs s' := by
  obtain ⟨rs, hrs⟩ : ∃ rs, readActive window t p.id s = .ok rs := exists_readActive hs hk ht hw
  have hrefresh : refresh window name t s = .ok ((p.id, rs), s.remembering rs) := by
    rw [refresh_eq, hp, ok_bind, hrs]
    rfl
  obtain ⟨_, -, -, hrefreshed⟩ := of_refresh ⟨hs.stageIds, hs.entryIds⟩ hrefresh
  exact ⟨rs, _, hrefresh, hrs, hrefreshed, remembered_of_remembering (ids_of_readActive hs hrs) s⟩

namespace Refreshes

theorem again (h : Refreshes window t pipeline s rs s') :
    readActive window t pipeline s' = .ok (rs.map Reading.remembered) := by
  obtain ⟨f, rfl, hf⟩ := h.refreshed
  have hactive : (s.entries.map f).filter (fun e => e.pipeline = pipeline && e.isActive) =
      (s.entries.filter fun e => e.pipeline = pipeline && e.isActive).map f := by
    rw [List.filter_map]
    congr 1
    apply List.filter_congr
    intro e he
    obtain hsame | ⟨-, -, b, hb⟩ := hf e he
    . simp [hsame]
    . simp only [Function.comp_apply, hb]
      rfl
  unfold readActive
  rw [hactive]
  apply mapM_of_mapM h.read
  intro e he r hr hread
  obtain ⟨rfl, hstage, hhealth⟩ := of_read hread
  have hmem := List.mem_of_mem_filter he
  have hput := h.remembered r hr (f r.entry) (List.mem_map_of_mem hmem) (hf r.entry hmem).id_eq
  rw [hput]
  change (Store.follow (s.stage? r.entry.stage) >>= fun stage => _) = _
  rw [hstage]
  change (Health.of r.entry.enteredAt t r.stage.deadline window >>= fun health => _) = _
  rw [hhealth]
  rfl

/-- What is refreshed a second time was fresh. -/
theorem fixed (h : Refreshes window t pipeline s' (rs.map Reading.remembered) s'') : s'' = s' := by
  obtain ⟨f, rfl, hf⟩ := h.refreshed
  have hsame : ∀ e ∈ s'.entries, f e = e := by
    intro e he
    obtain hsame | ⟨hp, hactive, -⟩ := hf e he
    . exact hsame
    . obtain ⟨_, hr, rfl⟩ := exists_reading h.read he hp hactive
      obtain ⟨r, -, rfl⟩ := List.mem_map.mp hr
      exact h.remembered r.remembered hr _ (List.mem_map_of_mem he) (hf _ he).id_eq
  rw [List.map_congr_left hsame, List.map_id']

end Refreshes

end HealthSummary

namespace Administration

open Operation

theorem healthSummary_of_refresh {window name : Value} {now : Stamp} {t : Instant} {p : Pipeline} {rs : List Reading}
    {s : Service} {store : Store} (hnow : now.instant = .ok t) (hs : store.IsSound)
    (hrefresh : HealthSummary.refresh window name t s.store = .ok ((p.id, rs), store))
    (hrefreshed : HealthSummary.IsRefreshed p.id s.store store) : healthSummary window name now s =
      (.ok (.ofReadings p.id now (s.store.stagesOf p.id) rs), { s with store }) := by
  obtain ⟨stages, hstages⟩ := HealthSummary.exists_stagesInOrder hs p.id
  have hsame : stages = s.store.stagesOf p.id := by
    simp only [HealthSummary.stagesInOrder, bind_eq_ok] at hstages
    obtain ⟨_, -, h⟩ := hstages
    cases h
    exact hrefreshed.stagesOf_eq p.id
  rw [healthSummary_eq, commit_bind_eq, HealthSummary.refresh_of_instant hnow, hrefresh]
  dsimp only
  rw [reading_bind_eq, hstages, hsame]
  rfl

end Administration

namespace Service

/--
The summary of the health of a pipeline agrees with the listing of its active entries. Once it is made, each of them
remembers the bucket that it is listed in, no other row is written, and another summary at the same time is the same.
-/
theorem reached_summary {ts : List Turn} {c : ZonedCall} {t : Instant} {pipeline : Int} {p : Pipeline}
    (hnow : c.now.instant = .ok t) (hw : c.window.isNumber)
    (hp : (reached ts).store.pipeline (.int pipeline) = .ok p) :
    ∃ views stages late h store, Command.activeViews c (.int pipeline) (reached ts).store = .ok views ∧
      Administration.healthSummary c.window (.int pipeline) c.now (reached ts) = (.ok h, { reached ts with store }) ∧
      h.toValue = HealthSummary.documentOf pipeline c.now views stages late ∧
      HealthSummary.Agrees (reached ts).store pipeline views stages late ∧
      HealthSummary.IsRefreshed pipeline (reached ts).store store ∧
      (∀ e ∈ store.entries, e.pipeline = pipeline → e.isActive →
        ∃ v ∈ views, v.entry.id = e.id ∧ ∃ b, v.bucket? = some b ∧ e.healthCache = some b.name) ∧
      Administration.healthSummary c.window (.int pipeline) c.now { reached ts with store } =
        (.ok h, { reached ts with store }) := by
  have hwell := isWell_reached ts
  have hrow := Store.rowId?_of_pipeline rfl hp
  obtain rfl := Store.eq_of_rowId?_int hrow
  generalize reached ts = s at *
  obtain ⟨rs, store, hrefresh, hrefreshes⟩ :=
    HealthSummary.exists_refresh hwell.sound hwell.consistent hwell.timely hw hp t
  have hsteps := (HealthSummary.leads_refresh hwell.sound).of_ok hrefresh
  have hsound := hwell.sound.steps hsteps
  obtain ⟨views, hviews, hperm⟩ := HealthSummary.exists_views_of_readActive hnow hrefreshes.read
  have hlisted : Command.activeViews c (.int p.id) s.store = .ok views := by
    unfold Command.activeViews
    rw [hrow]
    exact hviews
  have hagain : store.pipeline (.int p.id) = .ok p := by
    obtain ⟨f, rfl, -⟩ := hrefreshes.refreshed
    exact hp
  obtain ⟨rs', store', hrefresh', hrefreshes'⟩ :=
    HealthSummary.exists_refresh hsound (hwell.consistent.steps hwell.sound hsteps) (hwell.timely.steps hsteps) hw
      hagain t
  obtain rfl : rs.map Reading.remembered = rs' := by
    rw [← Except.ok.injEq, ← hrefreshes.again, hrefreshes'.read]
  obtain rfl := hrefreshes'.fixed
  refine ⟨views, _, _, _, store', hlisted,
    Administration.healthSummary_of_refresh hnow hsound hrefresh hrefreshes.refreshed, ?_,
    HealthSummary.agrees hwell.sound hwell.consistent hwell.counted hrefreshes.read hperm, hrefreshes.refreshed, ?_, ?_⟩
  . rw [HealthSummary.toValue_ofReadings]
    exact HealthSummary.documentOf_perm hperm p.id c.now _ _
  . intro e he hhome hactive
    obtain ⟨_, hr, rfl⟩ := HealthSummary.exists_reading hrefreshes'.read he hhome hactive
    obtain ⟨r, hread, rfl⟩ := List.mem_map.mp hr
    exact ⟨r.view c.now, hperm.mem_iff.mp (List.mem_map_of_mem hread), rfl, r.health.bucket, rfl, rfl⟩
  . have hsame := Administration.healthSummary_of_refresh (s := { s with store := store' }) hnow hsound hrefresh'
      hrefreshes'.refreshed
    rw [HealthSummary.ofReadings_remembered] at hsame
    rw [hsame, hrefreshes.refreshed.stagesOf_eq]

/-- Two leads in the first stage of a pipeline, the one for a week and the other since yesterday. -/
def pressing : List Turn :=
  let since (t : Int) : Caller := ⟨.text "system", some ⟨t⟩, .null⟩
  let stages : Value := .list [.object [("name", .text "New"), ("sla_deadline_days", .int 2)],
    .object [("name", .text "Won")]]
  Turn.allIn atWork
    [.createLead [("name", .text "Ada")], .createLead [("name", .text "Grace")],
      .createPipeline (.text "system") (.object [("name", .text "Sales"), ("stages", stages)]),
      .enroll (since 63907952400000000) (.int 1) (.int 1) .null,
      .enroll (since 63907434000000000) (.int 2) (.int 1) .null] (by decide)

theorem reached_summary_pressing :
    ∃ views stages late h s, Command.activeViews ⟨.text "system", atWork.now, .int 1, .int 0⟩ (.int 1)
        (reached pressing).store = .ok views ∧
      Administration.healthSummary (.int 1) (.int 1) atWork.now (reached pressing) = (.ok h, s) ∧
      h.toValue = HealthSummary.documentOf 1 atWork.now views stages late ∧
      HealthSummary.Agrees (reached pressing).store 1 views stages late ∧ views.map (·.entry.id) = [2, 1] ∧
      h.tally.overdue.map (·.entry) = [2] ∧ s.store.entries.map (·.healthCache) = [some "yellow", some "red"] := by
  have hp : ((reached pressing).store.pipeline (.int 1)).isOk := by decide +kernel
  obtain ⟨p, hp⟩ := exists_of_isOk hp
  obtain ⟨views, stages, late, h, store, hviews, hsummary, hdocument, hagrees, -⟩ :=
    reached_summary (c := ⟨.text "system", atWork.now, .int 1, .int 0⟩) rfl (Value.isNumber_int 1) hp
  have hlisted : (Command.activeViews ⟨.text "system", atWork.now, .int 1, .int 0⟩ (.int 1)
      (reached pressing).store).map (·.map (·.entry.id)) = .ok [2, 1] := by
    decide +kernel
  have hoverdue : (Administration.healthSummary (.int 1) (.int 1) atWork.now (reached pressing)).1.map
      (·.tally.overdue.map (·.entry)) = .ok [2] := by
    decide +kernel
  have hcache : (Administration.healthSummary (.int 1) (.int 1) atWork.now (reached pressing)).2.store.entries.map
      (·.healthCache) = [some "yellow", some "red"] := by
    decide +kernel
  rw [hviews, Except.map, Except.ok.injEq] at hlisted
  rw [hsummary, Except.map, Except.ok.injEq] at hoverdue
  rw [hsummary] at hcache
  exact ⟨views, stages, late, h, _, hviews, hsummary, hdocument, hagrees, hlisted, hoverdue, hcache⟩

end Service

end StageGate
