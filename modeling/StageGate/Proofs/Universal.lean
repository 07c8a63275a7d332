import StageGate.Advancement
import StageGate.Closing
import StageGate.Proofs.Readings

/-!
This module contains what operations come to when the clock of the caller keeps universal time: what it shows is the
instant that is computed with, so rows keep the same times that an answer shows.
-/

namespace StageGate

namespace Transaction

theorem reading_twice {α β : Type} (g : Store → Except Fault β) (f : β → β → Transaction α) :
    (reading g >>= fun b => reading g >>= f b) = reading g >>= fun b => f b b := by
  funext s
  rw [reading_bind, reading_bind]
  cases h : g s with
  | error e => rfl
  | ok b =>
    dsimp only [Bind.bind, Except.bind]
    change (reading g >>= f b) s = f b b s
    rw [reading_bind, h]
    rfl

end Transaction

/-! ## Operations -/

open Transaction

variable {c : Call}

theorem Enrollment.newEntry_universal {name : Value} {lead pipeline : Int} {note : Value} {source : Option Int}
    {s : Store} :
    newEntry c name lead pipeline note source s = (do
      requireVacant name (.int pipeline) lead pipeline s
      let first ← Store.follow (s.stagesOf pipeline).head?
      let note ← Column.text note
      let health ← Health.of c.now c.now first.deadline c.window
      let e : Entry := {
        id := Store.nextId (s.entries.map (·.id))
        lead
        pipeline
        stage := first.id
        status := .active
        enrolledAt := c.now
        enteredAt := c.now
        closedAt := none
        archiveReason := none
        note
        healthCache := some health.bucket.name
        transferredFrom := source }
      return (e, first)) :=
  rfl

namespace Advancement

variable {e : Entry} {target : Stage} {note : Value}

theorem placed_universal {s : Store} :
    placed c c.now e target note s = (do
      let note ← Column.renew e.note note
      let moved := { e.moveTo target.id c.now with note }
      if s.isTerminal target then return moved.complete c.now
      let health ← s.healthOf c.window c.now moved
      return moved.remember health.bucket) :=
  rfl

theorem move_universal {current : Stage} {verdict : Verdict} {sla : Health} :
    move c e current target verdict sla note = (do
      let new ← reading (placed c c.now e target note)
      let isForward ← current.order.lt target.order
      let outcome : MoveOutcome :=
        if !new.isActive then .completed else if isForward then .advanced else .regressed
      putEntry new
      record ⟨.entry, e.id, some e.lead, some e.pipeline, outcome.action, c.actor,
        .moved current.ref target.ref new.status sla (verdict.warnings.map (·.check.name))⟩ c.now
      return ⟨outcome, ← reading (·.view c.window c.now new), note, verdict, sla, current.id, target.id⟩) :=
  reading_twice _ _

end Advancement

theorem HealthSummary.read_universal {window : Value} {now : Instant} {s : Store} {e : Entry} :
    read window now s e = (do
      let stage ← Store.follow (s.stage? e.stage)
      return ⟨e, stage, ← Health.of e.enteredAt now stage.deadline window⟩) :=
  rfl

end StageGate
