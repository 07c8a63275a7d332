import StageGate.Proofs.Facts

/-!
This module contains how the health of a stay changes. The longer an entry stays, and the stricter its stage is
about it, the worse its health, however the instants are written and although the seconds between them are rounded.
-/

namespace StageGate

/-! ## Days -/

namespace Instant

variable {since since' now now' : Instant}

theorem secondsUnits_mono (hsince : since' ≤ since) (hnow : now ≤ now') :
    secondsUnits since now ≤ secondsUnits since' now' := by
  have hspan : (now.micros - since.micros).toNat ≤ (now'.micros - since'.micros).toNat := by
    apply Int.toNat_le_toNat
    exact Int.sub_le_sub hnow hsince
  apply Binary64.nearest_mono (by decide)
  exact Nat.mul_le_mul_right Binary64.one hspan

theorem wholeDays_mono (hsince : since' ≤ since) (hnow : now ≤ now') :
    wholeDays since now ≤ wholeDays since' now' :=
  Nat.div_le_div_right (secondsUnits_mono hsince hnow)

end Instant

/-! ## Standings -/

def Bucket.severity : Bucket → Nat
  | .green => 0
  | .yellow => 1
  | .red => 2

namespace Standing

def bucketOf (elapsed deadline window : Int) : Bucket :=
  if deadline < elapsed then .red else if deadline - elapsed ≤ window then .yellow else .green

theorem bucket_of {elapsed deadline window : Int} {standing : Standing}
    (h : Standing.of (.int elapsed) (.int deadline) (.int window) = .ok standing) :
    standing.bucket = bucketOf elapsed deadline window := by
  have hlate : 0 < max 0 (elapsed - deadline) ↔ deadline < elapsed := by omega
  unfold Standing.of at h
  simp only [Value.sub_int, Value.positivePart_int, Value.lt_int, Value.atMost_int, bind, Except.bind, pure, Except.pure,
    decide_eq_true_eq, hlate] at h
  unfold bucketOf
  repeat' split at h
  all_goals cases h
  all_goals simp [*]

theorem bucketOf_mono {elapsed elapsed' deadline deadline' window window' : Int} (he : elapsed ≤ elapsed')
    (hd : deadline' ≤ deadline) (hw : window ≤ window') :
    (bucketOf elapsed deadline window).severity ≤ (bucketOf elapsed' deadline' window').severity := by
  unfold bucketOf
  repeat' split
  all_goals first | omega | decide

end Standing

/-! ## The health of a stay -/

/-- Of two stamps the one is of an instant that is not after that of the other. -/
def Stamp.IsBy (s s' : Stamp) : Prop :=
  ∃ t t', s.instant = .ok t ∧ s'.instant = .ok t' ∧ t ≤ t'

namespace Health

/-- The health of a stay from one stamp to another. Only the instants that they are of matter. -/
def between (entered now : Stamp) (deadline window : Value) : Except Fault Health := do
  of (← entered.instant) (← now.instant) deadline window

structure IsNoWorseThan (h h' : Health) : Prop where
  elapsed : h.elapsed ≤ h'.elapsed
  overdue : h.overdue.atMost h'.overdue = .ok true
  remaining : h'.remaining.atMost h.remaining = .ok true
  bucket : h.bucket.severity ≤ h'.bucket.severity

variable {entered entered' now now' : Stamp} {deadline deadline' window window' : Int} {health health' : Health}

theorem bucket_of {entered now : Instant} (h : of entered now (.int deadline) (.int window) = .ok health) :
    health.bucket = Standing.bucketOf (entered.wholeDays now) deadline window := by
  simp only [of, bind_eq_ok, pure, Except.pure, Except.ok.injEq] at h
  obtain ⟨standing, hstanding, due, -, remaining, -, rfl⟩ := h
  exact Standing.bucket_of hstanding

theorem isNoWorseThan_of {entered entered' now now' : Instant} (hentered : entered' ≤ entered) (hnow : now ≤ now')
    (hd : deadline' ≤ deadline) (hw : window ≤ window') (h : of entered now (.int deadline) (.int window) = .ok health)
    (h' : of entered' now' (.int deadline') (.int window') = .ok health') : health.IsNoWorseThan health' := by
  obtain ⟨helapsed, hdays⟩ := days_of h
  obtain ⟨helapsed', hdays'⟩ := days_of h'
  obtain ⟨hoverdue, hremaining⟩ := hdays deadline rfl
  obtain ⟨hoverdue', hremaining'⟩ := hdays' deadline' rfl
  have hmono := Instant.wholeDays_mono hentered hnow
  constructor
  . rw [helapsed, helapsed']
    exact hmono
  . rw [hoverdue, hoverdue', Value.atMost_int, Except.ok.injEq, decide_eq_true_eq]
    omega
  . rw [hremaining, hremaining', Value.atMost_int, Except.ok.injEq, decide_eq_true_eq]
    omega
  . rw [bucket_of h, bucket_of h']
    exact Standing.bucketOf_mono (by omega) hd hw

/--
Health does not get better with time, nor for an entry that has been in its stage for longer, nor with a nearer
deadline, nor where the warning comes earlier.
-/
theorem worsens (hentered : entered'.IsBy entered) (hnow : now.IsBy now') (hd : deadline' ≤ deadline)
    (hw : window ≤ window') (h : between entered now (.int deadline) (.int window) = .ok health)
    (h' : between entered' now' (.int deadline') (.int window') = .ok health') : health.IsNoWorseThan health' := by
  obtain ⟨since', since, hsince', hsince, hle⟩ := hentered
  obtain ⟨till, till', htill, htill', hle'⟩ := hnow
  simp only [between, hsince, htill, bind, Except.bind] at h
  simp only [between, hsince', htill', bind, Except.bind] at h'
  exact isNoWorseThan_of hle hle' hd hw h h'

/-- The first of the two stays is a microsecond short of the last day, and is rounded up to it. -/
theorem worsens_of_rounded :
    ∃ health health', between ⟨⟨3600000000⟩, some 3600000000⟩ ⟨⟨3652058 * Instant.microsPerDay - 1⟩, none⟩
        (.int 3652058) (.int (-1)) = .ok health ∧
      between ⟨⟨0⟩, none⟩ ⟨⟨3652058 * Instant.microsPerDay⟩, some (-3600000000)⟩ (.int 3652057) (.int 0) = .ok health' ∧
      health.elapsed = 3652058 ∧ health.bucket = .green ∧ health'.bucket = .red ∧ health.IsNoWorseThan health' := by
  have hfirst : (between ⟨⟨3600000000⟩, some 3600000000⟩ ⟨⟨3652058 * Instant.microsPerDay - 1⟩, none⟩
      (.int 3652058) (.int (-1))).map (fun h => (h.elapsed, h.bucket)) = .ok (3652058, .green) := by decide +kernel
  have hsecond : (between ⟨⟨0⟩, none⟩ ⟨⟨3652058 * Instant.microsPerDay⟩, some (-3600000000)⟩
      (.int 3652057) (.int 0)).map bucket = .ok .red := by decide +kernel
  obtain ⟨health, h, hhealth⟩ := map_eq_ok.mp hfirst
  obtain ⟨health', h', hhealth'⟩ := map_eq_ok.mp hsecond
  have hentered : Stamp.IsBy ⟨⟨0⟩, none⟩ ⟨⟨3600000000⟩, some 3600000000⟩ :=
    ⟨⟨0⟩, ⟨0⟩, rfl, by decide +kernel, by decide⟩
  have hnow : Stamp.IsBy ⟨⟨3652058 * Instant.microsPerDay - 1⟩, none⟩
      ⟨⟨3652058 * Instant.microsPerDay⟩, some (-3600000000)⟩ :=
    ⟨_, ⟨3652058 * Instant.microsPerDay + 3600000000⟩, rfl, by decide +kernel, by decide +kernel⟩
  rw [Prod.mk.injEq] at hhealth
  exact ⟨health, health', h, h', hhealth.1, hhealth.2, hhealth', worsens hentered hnow (by decide) (by decide) h h'⟩

end Health

end StageGate
