import StageGate.Proofs.Aging
import StageGate.Proofs.Deadlines

/-!
This module contains that the health of a stay is exact. The seconds of a stay are rounded, but within 270 years so
little that no day is counted too early or too late, and its bucket is what the day when it is due makes it.
-/

namespace StageGate

/-! ## Days -/

namespace Instant

/-- Less than so many seconds are rounded by less than half a microsecond. -/
def preciseSeconds : Nat := 2 ^ 33

/-- Whichever 270 years these are, none of them has more days. -/
def longestSpan : Nat := 270 * 366 * microsPerDay

variable {since now : Instant} {n q : Nat}

theorem log2_quotient_le (h : n < preciseSeconds * microsPerSecond) :
    (n * Binary64.one / microsPerSecond).log2 ≤ 1106 := by
  rcases Nat.eq_zero_or_pos (n * Binary64.one / microsPerSecond) with hzero | hpos
  . rw [hzero, Nat.log2_zero]
    omega
  . have hlt : n * Binary64.one / microsPerSecond < 2 ^ 1107 := by
      have hpow : (2 : Nat) ^ 1107 = preciseSeconds * Binary64.one := by
        rw [preciseSeconds, Binary64.one_eq, ← Nat.pow_add]
      rw [Nat.div_lt_iff_lt_mul (by decide), hpow, Nat.mul_right_comm]
      exact Nat.mul_lt_mul_of_pos_right h Binary64.one_pos
    have := (Nat.log2_lt (Nat.ne_of_gt hpos)).mpr hlt
    omega

theorem secondsUnits_mul_le (hn : (now.micros - since.micros).toNat = n) (h : n < preciseSeconds * microsPerSecond) :
    2 ^ 21 * (secondsUnits since now * microsPerSecond) ≤ (2 ^ 21 * n + microsPerSecond) * Binary64.one := by
  have hstep : 2 ^ 20 * 2 ^ ((n * Binary64.one / microsPerSecond).log2 - 52) ≤ Binary64.one := by
    have hlog := log2_quotient_le h
    generalize (n * Binary64.one / microsPerSecond).log2 = top at hlog
    rw [Binary64.one_eq, ← Nat.pow_add, Nat.pow_le_pow_iff_right (by decide)]
    omega
  have hpos : 0 < microsPerSecond := by decide
  have hround := Binary64.two_mul_nearest_le (n * Binary64.one) hpos
  unfold secondsUnits
  rw [hn, Nat.add_mul, Nat.mul_assoc (2 ^ 21) n]
  generalize Binary64.nearest (n * Binary64.one) microsPerSecond * microsPerSecond = units at hround ⊢
  generalize 2 ^ ((n * Binary64.one / microsPerSecond).log2 - 52) = step at hstep hround
  generalize n * Binary64.one = total at hround ⊢
  unfold microsPerSecond at *
  omega

theorem secondsUnits_lt (hn : (now.micros - since.micros).toNat = n) (h : n < preciseSeconds * microsPerSecond)
    (hq : n < q * microsPerSecond) : secondsUnits since now < q * Binary64.one := by
  have hlt : 2 ^ 21 * (secondsUnits since now * microsPerSecond) < 2 ^ 21 * (q * Binary64.one * microsPerSecond) :=
    calc 2 ^ 21 * (secondsUnits since now * microsPerSecond)
      _ ≤ (2 ^ 21 * n + microsPerSecond) * Binary64.one := secondsUnits_mul_le hn h
      -- A microsecond is more than what rounding adds.
      _ < 2 ^ 21 * (n + 1) * Binary64.one := by
        apply Nat.mul_lt_mul_of_pos_right _ Binary64.one_pos
        unfold microsPerSecond
        omega
      _ ≤ 2 ^ 21 * (q * microsPerSecond) * Binary64.one :=
        Nat.mul_le_mul_right _ (Nat.mul_le_mul_left _ hq)
      _ = 2 ^ 21 * (q * Binary64.one * microsPerSecond) := by
        rw [Nat.mul_assoc, Nat.mul_right_comm q]
  exact Nat.lt_of_mul_lt_mul_right (Nat.lt_of_mul_lt_mul_left hlt)

theorem le_secondsUnits (hn : (now.micros - since.micros).toNat = n) (hq : q * microsPerSecond ≤ n)
    (hfew : q ≤ 2 ^ 53) : q * Binary64.one ≤ secondsUnits since now := by
  have hexact : Binary64.nearest (q * Binary64.one * microsPerSecond) microsPerSecond = q * Binary64.one := by
    rw [Binary64.nearest_mul _ (by decide), ← Binary64.rounded_eq, Binary64.one_eq, Binary64.rounded_mul_pow hfew]
  unfold secondsUnits
  rw [← hexact, hn, Nat.mul_right_comm]
  exact Binary64.nearest_mono (by decide) (Nat.mul_le_mul_right _ hq)

/-- No rounding of the seconds gets over the end of a day, not even from the last microsecond before it. -/
theorem wholeDays_eq (h : now.micros - since.micros < preciseSeconds * microsPerSecond) :
    (since.wholeDays now : Int) = max 0 ((now.micros - since.micros) / microsPerDay) := by
  generalize hn : (now.micros - since.micros).toNat = n
  have hfew : n < preciseSeconds * microsPerSecond := by
    unfold preciseSeconds microsPerSecond at *
    omega
  have hdays : since.wholeDays now = n / microsPerDay := by
    unfold wholeDays
    apply Nat.div_eq_of_lt_le
    . rw [← Nat.mul_assoc]
      unfold preciseSeconds microsPerSecond at hfew
      apply le_secondsUnits hn
      . unfold microsPerDay microsPerSecond
        omega
      . unfold microsPerDay microsPerSecond
        omega
    . rw [← Nat.mul_assoc]
      apply secondsUnits_lt hn hfew
      unfold microsPerDay microsPerSecond
      omega
  rw [hdays]
  unfold microsPerDay microsPerSecond
  omega

theorem micros_of_addDays {t due : Instant} {days : Int} (h : t.addDays (.int days) = .ok due) :
    due.micros = t.micros + days * microsPerDay := by
  rw [addDays_int] at h
  split at h
  . cases h
    rfl
  . cases h

end Instant

/-! ## The health of a stay -/

namespace Health

/-- What the health of a stay is when all of it is counted in microseconds. -/
structure IsExact (since till due : Instant) (deadline window : Int) (h : Health) : Prop where
  elapsed : (h.elapsed : Int) = max 0 ((till.micros - since.micros) / Instant.microsPerDay)
  overdue : h.overdue = .int (max 0 (h.elapsed - deadline))
  dueAt : h.dueAt = due
  bucket : h.bucket =
    if due.micros + Instant.microsPerDay ≤ till.micros then .red
    else if deadline ≤ window ∨ due.micros - window * Instant.microsPerDay ≤ till.micros then .yellow
    else .green

theorem dueAt_of {entered now : Instant} {deadline window : Value} {health : Health}
    (h : of entered now deadline window = .ok health) : entered.addDays deadline = .ok health.dueAt := by
  simp only [of, bind_eq_ok, pure, Except.pure, Except.ok.injEq] at h
  obtain ⟨standing, -, due, hdue, remaining, -, rfl⟩ := h
  exact hdue

theorem isExact_of {since till due : Instant} {deadline window : Int} {health : Health} (hd : 0 ≤ deadline)
    (hspan : (till.micros - since.micros).natAbs < Instant.longestSpan) (hdue : since.addDays (.int deadline) = .ok due)
    (h : of since till (.int deadline) (.int window) = .ok health) :
    health.IsExact since till due deadline window := by
  obtain ⟨helapsed, hdays⟩ := days_of h
  have hwhole : (since.wholeDays till : Int) = max 0 ((till.micros - since.micros) / Instant.microsPerDay) := by
    apply Instant.wholeDays_eq
    unfold Instant.longestSpan Instant.microsPerDay Instant.microsPerSecond at hspan
    unfold Instant.preciseSeconds Instant.microsPerSecond
    omega
  have hmicros := Instant.micros_of_addDays hdue
  have hred : deadline < since.wholeDays till ↔ due.micros + Instant.microsPerDay ≤ till.micros := by
    rw [hwhole, hmicros]
    unfold Instant.microsPerDay Instant.microsPerSecond
    omega
  have hyellow : deadline - since.wholeDays till ≤ window ↔
      deadline ≤ window ∨ due.micros - window * Instant.microsPerDay ≤ till.micros := by
    rw [hwhole, hmicros]
    unfold Instant.microsPerDay Instant.microsPerSecond
    omega
  constructor
  . rw [helapsed, hwhole]
  . rw [helapsed]
    exact (hdays deadline rfl).1
  . rw [dueAt_of h, Except.ok.injEq] at hdue
    exact hdue
  . rw [bucket_of h, Standing.bucketOf]
    simp only [hred, hyellow]

variable {entered now : Stamp} {since due : Instant} {deadline window : Int}

/--
The health of a stay of less than 270 years is exact to the microsecond, however its stamps are written, unless it
is asked for with a stamp that is of no instant of the calendar.
-/
theorem told_exactly (hd : 0 ≤ deadline) (hentered : entered.instant = .ok since)
    (hdue : since.addDays (.int deadline) = .ok due) :
    (∀ till, now.instant = .ok till → (till.micros - since.micros).natAbs < Instant.longestSpan →
      ∃ health, between entered now (.int deadline) (.int window) = .ok health ∧
        health.IsExact since till due deadline window) ∧
      ∀ e, now.instant = .error e → between entered now (.int deadline) (.int window) = .error e := by
  constructor
  . intro till htill hspan
    have hdeadline : (Value.int deadline).isDeadline := by simpa [Value.isDeadline] using hd
    obtain ⟨health, h⟩ := exists_of hdeadline (Value.isNumber_int window) hdue till
    refine ⟨health, ?_, isExact_of hd hspan hdue h⟩
    simp only [between, hentered, htill, bind, Except.bind, h]
  . intro e he
    simp only [between, hentered, he, bind, Except.bind]

/-- A microsecond before the last day is over, with stamps of two time zones that are 269 years apart. -/
theorem told_exactly_before_midnight :
    ∃ entered now since till due health, Stamp.ofText? "1757-03-02T05:30:00.000001+05:30" = some entered ∧
      Stamp.ofText? "2026-03-02T00:00:00" = some now ∧ entered.instant = .ok since ∧ now.instant = .ok till ∧
      since.addDays (.int 98249) = .ok due ∧ between entered now (.int 98249) (.int 1) = .ok health ∧
      health.IsExact since till due 98249 1 ∧ health.elapsed = 98249 ∧ health.bucket = .yellow := by
  have hentered : Stamp.ofText? "1757-03-02T05:30:00.000001+05:30" =
      some ⟨⟨55419226200000001⟩, some 19800000000⟩ := by decide +kernel
  have hnow : Stamp.ofText? "2026-03-02T00:00:00" = some ⟨⟨63908006400000000⟩, none⟩ := by decide +kernel
  have hsince : Stamp.instant ⟨⟨55419226200000001⟩, some 19800000000⟩ = .ok ⟨55419206400000001⟩ := by decide +kernel
  have htill : Stamp.instant ⟨⟨63908006400000000⟩, none⟩ = .ok ⟨63908006400000000⟩ := by decide +kernel
  have hdue : Instant.addDays ⟨55419206400000001⟩ (.int 98249) = .ok ⟨63907920000000001⟩ := by decide +kernel
  obtain ⟨health, h, hexact⟩ :
      ∃ health, between ⟨⟨55419226200000001⟩, some 19800000000⟩ ⟨⟨63908006400000000⟩, none⟩ (.int 98249) (.int 1) =
        .ok health ∧ health.IsExact ⟨55419206400000001⟩ ⟨63908006400000000⟩ ⟨63907920000000001⟩ 98249 1 :=
    (told_exactly (by decide) hsince hdue).1 _ htill (by decide +kernel)
  refine ⟨_, _, _, _, _, health, hentered, hnow, hsince, htill, hdue, h, hexact, ?_, ?_⟩
  . have helapsed := hexact.elapsed
    exact Int.ofNat_inj.mp (helapsed.trans (by decide +kernel))
  . rw [hexact.bucket]
    decide +kernel

/-- A stamp with a reading in the calendar, that is of no instant of it. What was entered is due in the calendar. -/
theorem between_beyond_calendar :
    ∃ entered now since due, Stamp.ofText? "9999-12-31T00:00:00" = some entered ∧
      Stamp.ofText? "9999-12-31T23:30:00-01:00" = some now ∧ entered.instant = .ok since ∧
      since.addDays (.int 0) = .ok due ∧ now.reading.InCalendar ∧
      between entered now (.int 0) (.int 1) = .error (.broken .tooLarge) := by
  have hentered : Stamp.ofText? "9999-12-31T00:00:00" = some ⟨⟨315537811200000000⟩, none⟩ := by decide +kernel
  have hnow : Stamp.ofText? "9999-12-31T23:30:00-01:00" = some ⟨⟨315537895800000000⟩, some (-3600000000)⟩ := by
    decide +kernel
  refine ⟨_, _, ⟨315537811200000000⟩, ⟨315537811200000000⟩, hentered, hnow, rfl, ?_, ?_, ?_⟩
  . decide +kernel
  . decide +kernel
  . decide +kernel

end Health

end StageGate
