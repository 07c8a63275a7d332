import StageGate.Advancement
import StageGate.Closing
import StageGate.Proofs.NormalForm
import StageGate.Proofs.Numbers
import StageGate.Proofs.Rows

/-!
This module contains the steps that the store takes: every change that the services make consists of them,
and each of them writes the rows that belong together.
-/

namespace StageGate

open Transaction

inductive Effect where
  -- The entries stay, but an active one may remember another health.
  | quiet
  | enroll
  | move
  | archive
  | transfer
  deriving DecidableEq

def Effect.rows : Effect → Nat
  | .quiet => 0
  | _ => 1

structure Opening (c : Call) (s : Store) (e : Entry) (first : Stage) : Prop where
  vacant : s.activeEntryIn? e.lead e.pipeline = none
  head : (s.stagesOf e.pipeline).head? = some first
  id : e.id = Store.nextId (s.entries.map (·.id))
  stage : e.stage = first.id
  status : e.status = .active
  enrolledAt : e.enrolledAt = c.now
  enteredAt : e.enteredAt = c.now
  closedAt : e.closedAt = none
  reason : e.archiveReason = none
  health : ∃ h, Health.of c.now c.now first.deadline c.window = .ok h ∧ e.healthCache = some h.bucket.name

namespace Store

structure Holds (s : Store) (e : Entry) : Prop where
  mem : e ∈ s.entries
  isActive : e.isActive

def HasPipeline (s : Store) (pipeline : Int) : Prop :=
  pipeline ∈ s.pipelines.map (·.id)

/-- Whether a lead is there, under an id that its column can be asked for. -/
def Knows (s : Store) (lead : Int) : Prop :=
  lead ∈ s.leads.map (·.id) ∧ Column.checkInt lead = .ok ()

/-- What becomes of leads, pipelines and criteria: none goes away, and new rules are documents. -/
structure Keeps (s s' : Store) : Prop where
  leads : s.leads.map (·.id) ⊆ s'.leads.map (·.id)
  pipelines : s.pipelines.map (·.id) ⊆ s'.pipelines.map (·.id)
  rules : ∀ c ∈ s'.criteria, c.rule.isJson ∨ ∃ x ∈ s.criteria, x.rule = c.rule

structure Fits (s : Store) (stage : Stage) : Prop where
  deadline : stage.deadline.isDeadline
  order : stage.order.isNumber
  home : s.HasPipeline stage.pipeline
  seat : s.seats stage

def HasDocuments (s : Store) : Prop :=
  ∀ c ∈ s.criteria, c.rule.isJson

theorem Keeps.hasDocuments {s s' : Store} (hk : s.Keeps s') (h : s.HasDocuments) : s'.HasDocuments := by
  intro c hc
  rcases hk.rules c hc with hrule | ⟨x, hx, hrule⟩
  . exact hrule
  . rw [← hrule]
    exact h x hx

theorem Keeps.of_eq {s s' : Store} (hleads : s'.leads = s.leads) (hpipelines : s'.pipelines = s.pipelines)
    (hcriteria : s'.criteria = s.criteria) : s.Keeps s' where
  leads := by
    rw [hleads]
    exact fun _ h => h
  pipelines := by
    rw [hpipelines]
    exact fun _ h => h
  rules := by
    intro c hc
    rw [hcriteria] at hc
    exact .inr ⟨c, hc, rfl⟩

theorem knows_of_lead {s : Store} {id : Value} {l : Lead} (h : s.lead id = .ok l) : s.Knows l.id := by
  obtain ⟨v, n, -, hn, hl⟩ := row?_of_require h
  have hid : l.id = n := by simpa using List.find?_some hl
  rw [← hid] at hn
  exact ⟨List.mem_map_of_mem (List.mem_of_find?_eq_some hl), checkInt_of_rowId? hn⟩

theorem Knows.mono {s s' : Store} {lead : Int} (h : s.Knows lead) (hk : s.Keeps s') : s'.Knows lead :=
  ⟨hk.leads h.1, h.2⟩

inductive Step : Effect → Store → Store → Prop where
  -- Only rows of other tables are written.
  | aside {s s' : Store} (stages : s'.stages = s.stages) (entries : s'.entries = s.entries)
      (audit : s'.audit = s.audit) (kept : s.Keeps s') : Step .quiet s s'
  | addStage {s : Store} {stage : Stage} (id : stage.id = nextId (s.stages.map (·.id)))
      (limit : stage.limit.isLimit) (fit : s.Fits stage) :
      Step .quiet s { s with stages := s.stages ++ [stage] }
  | note {s : Store} (n : Note) (actor : String) (time : Instant) (subject : n.subject ≠ .entry) :
      Step .quiet s (s.addAudit (n.row actor time s))
  | refresh {s : Store} {e : Entry} (b : Bucket) (held : s.Holds e) :
      Step .quiet s (s.putEntry (e.remember b))
  | enroll {s : Store} {c : Call} {e : Entry} {first : Stage} (opening : Opening c s e first)
      (origin : e.transferredFrom = none) (bulk : Bool) (actor : String) (known : s.Knows e.lead) :
      Step .enroll s ((s.addEntry e).addAudit
        (Note.row ⟨.entry, e.id, some e.lead, some e.pipeline, .enroll, c.actor,
          .enrolled first.ref bulk⟩ actor c.now (s.addEntry e)))
  | move {s : Store} {c : Call} {e new : Entry} {name note : Value} {current target : Stage}
      (held : s.Holds e) (here : s.stage? e.stage = some current)
      (resolved : Advancement.resolveTarget e name s = .ok target)
      (placed : Advancement.placed c c.now e target note s = .ok new) (outcome : Advancement.MoveOutcome)
      (sla : Health) (warnings : List Value) (actor : String) (ends : outcome = .completed ↔ ¬new.isActive) :
      Step .move s ((s.putEntry new).addAudit
        (Note.row ⟨.entry, e.id, some e.lead, some e.pipeline, outcome.action, c.actor,
          .moved current.ref target.ref new.status sla warnings⟩ actor c.now (s.putEntry new)))
  | archive {s : Store} {c : Call} {e : Entry} {stage : Stage} {reason : Value} {kept : Option String}
      (held : s.Holds e) (here : s.stage? e.stage = some stage)
      (keeps : Closing.keptReason reason = .ok kept) (actor : String) :
      Step .archive s ((s.putEntry (e.archive kept c.now)).addAudit
        (Note.row ⟨.entry, e.id, some e.lead, some e.pipeline, .archive, c.actor,
          .archived stage.ref reason⟩ actor c.now (s.putEntry (e.archive kept c.now))))
  | transfer {s : Store} {c : Call} {e opened : Entry} {stage first : Stage} {name reason : Value}
      {kept : Option String} (held : s.Holds e) (here : s.stage? e.stage = some stage)
      (keeps : Closing.keptReason (.text (Closing.transferReason reason)) = .ok kept)
      (lead : opened.lead = e.lead) (pipeline : rowId? name = .ok (some opened.pipeline))
      (apart : opened.pipeline ≠ e.pipeline)
      (opening : Opening c (s.putEntry (e.archive kept c.now)) opened first)
      (origin : opened.transferredFrom = some e.id) (actor : String) :
      Step .transfer s (((s.putEntry (e.archive kept c.now)).addEntry opened).addAudit
        (Note.row ⟨.entry, e.id, some e.lead, some e.pipeline, .transfer, c.actor,
          .transferred ⟨e.id, .int e.pipeline, stage.ref⟩ ⟨opened.id, name, first.ref⟩ reason⟩
          actor c.now ((s.putEntry (e.archive kept c.now)).addEntry opened)))

/-- Steps of one effect, with the number of the audit rows that they write about entries. -/
inductive Steps (f : Effect) (s : Store) : Nat → Store → Prop where
  | refl : Steps f s 0 s
  | tail {n : Nat} {s' s'' : Store} (steps : Steps f s n s') (step : Step f s' s'') :
      Steps f s (n + f.rows) s''

theorem Step.steps {f : Effect} {s s' : Store} (h : Step f s s') : Steps f s f.rows s' := by
  have := Steps.refl.tail h
  rwa [Nat.zero_add] at this

theorem Step.quiet {s s' : Store} (h : Step .quiet s s') : Steps .quiet s 0 s' :=
  h.steps

theorem Steps.trans {f : Effect} {m n : Nat} {s s' s'' : Store} (h : Steps f s m s')
    (h' : Steps f s' n s'') : Steps f s (m + n) s'' := by
  induction h' with
  | refl => exact h
  | tail _ step ih =>
    rw [← Nat.add_assoc]
    exact ih.tail step

theorem Step.stages_eq {f : Effect} {s s' : Store} (h : Step f s s') (hf : f ≠ .quiet) :
    s'.stages = s.stages := by
  cases h <;> first | rfl | exact absurd rfl hf

theorem Steps.stages_eq {f : Effect} {n : Nat} {s s' : Store} (h : Steps f s n s') (hf : f ≠ .quiet) :
    s'.stages = s.stages := by
  induction h with
  | refl => rfl
  | tail _ step ih => rw [step.stages_eq hf, ih]

theorem Step.stages_subset {f : Effect} {s s' : Store} (h : Step f s s') : s.stages ⊆ s'.stages := by
  cases h with
  | aside stages _ _ => rw [stages]; exact fun _ h => h
  | addStage => exact List.subset_append_left ..
  | _ => exact fun _ h => h

theorem Step.keeps {f : Effect} {s s' : Store} (h : Step f s s') : s.Keeps s' := by
  cases h with
  | aside _ _ _ kept => exact kept
  | _ => exact .of_eq rfl rfl rfl

theorem Steps.pipelines_subset {f : Effect} {n : Nat} {s s' : Store} (h : Steps f s n s') :
    s.pipelines.map (·.id) ⊆ s'.pipelines.map (·.id) := by
  induction h with
  | refl => exact fun _ h => h
  | tail _ step ih => exact fun _ h => step.keeps.pipelines (ih h)

theorem Steps.hasDocuments {f : Effect} {n : Nat} {s s' : Store} (h : Steps f s n s') (hs : s.HasDocuments) :
    s'.HasDocuments := by
  induction h with
  | refl => exact hs
  | tail _ step ih => exact step.keeps.hasDocuments ih

theorem Steps.stages_subset {f : Effect} {n : Nat} {s s' : Store} (h : Steps f s n s') :
    s.stages ⊆ s'.stages := by
  induction h with
  | refl => exact fun _ h => h
  | tail _ step ih => exact fun _ h => step.stages_subset (ih h)

end Store

end StageGate
