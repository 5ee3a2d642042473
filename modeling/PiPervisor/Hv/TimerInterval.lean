import PiPervisor.Hv.TimerDelivery
import PiPervisor.Hv.Alarm

/-! # The interval that the physical timer is loaded with

The timer counts 256 cycles of a 250 MHz clock at a time. The load rounds the
microseconds until the deadline up to whole counts; the limit on the microseconds
leaves room for that in the 23 bits of the counter.
-/
namespace PiPervisor.Hv

variable {P : Platform}

/-- The cycles of an interval. -/
def timerCycles (deltaUs : BitVec 32) : BitVec 64 :=
  deltaUs.setWidth 64 * (timArmTimerClockRate / 1000000)

/-- The counts of an interval, before they are brought into the range of the counter. -/
def wholeCounts (deltaUs : BitVec 32) : BitVec 64 :=
  (timerCycles deltaUs + timArmTimerPrescale - 1) >>> 8

theorem timerTicks_eq (deltaUs : BitVec 32) : timerTicks deltaUs =
    if wholeCounts deltaUs = 0 then 1
    else if wholeCounts deltaUs > timLoadMax then timLoadMax else wholeCounts deltaUs := rfl

/-- The distance to a deadline, 1 for one that is not ahead. -/
def deadlineDistance (deadline now : BitVec 64) : ℕ :=
  if deadline > now then max 1 (deadline.toNat - now.toNat) else 1

theorem deadlineDistance_eq (deadline now : BitVec 64) :
    deadlineDistance deadline now = max 1 (deadline.toNat - now.toNat) := by
  rw [deadlineDistance]
  split
  · rfl
  · rename_i hle
    rw [Nat.sub_eq_zero_of_le (Nat.not_lt.mp (mt BitVec.lt_def.mpr hle))]
    rfl

/-- No step on the way from a deadline to a load wraps, and the saturation stays out of it. -/
structure ExactInterval (deadline now : BitVec 64) : Prop where
  difference : deadline > now → deadline.usubOverflow now = false
  usec : (rearmUsec deadline now).setWidth 64 = rearmDelta deadline now
  cycles : ((rearmUsec deadline now).setWidth 64).umulOverflow
    (timArmTimerClockRate / 1000000) = false
  prescale : (timerCycles (rearmUsec deadline now)).uaddOverflow timArmTimerPrescale = false
  lessOne : (timerCycles (rearmUsec deadline now) + timArmTimerPrescale).usubOverflow 1 = false
  unsaturated : timerTicks (rearmUsec deadline now) = wholeCounts (rearmUsec deadline now)
  load : ((timerTicks (rearmUsec deadline now)).setWidth 32).setWidth 64 =
    timerTicks (rearmUsec deadline now)

section Counts
variable {us : BitVec 32} (hpos : 1 ≤ us.toNat) (hmax : us.toNat ≤ timArmTimerMaxDeltaUs.toNat)

theorem clockRate_toNat : (timArmTimerClockRate / 1000000).toNat = 250 := by decide

theorem prescale_toNat : timArmTimerPrescale.toNat = 256 := rfl

include hmax

theorem timerCycles_toNat : (timerCycles us).toNat = 250 * us.toNat := by
  rw [timArmTimerMaxDeltaUs_eq] at hmax
  rw [timerCycles, BitVec.toNat_mul, clockRate_toNat, BitVec.toNat_setWidth,
    Nat.mod_eq_of_lt (us.isLt.trans (by decide)), Nat.mod_eq_of_lt (by omega), Nat.mul_comm]

/-- The quotient of the cycles by 256, rounded up. -/
theorem wholeCounts_toNat : (wholeCounts us).toNat = (250 * us.toNat + 255) / 256 := by
  have hcycles := timerCycles_toNat hmax
  rw [timArmTimerMaxDeltaUs_eq] at hmax
  rw [wholeCounts, BitVec.toNat_ushiftRight, Nat.shiftRight_eq_div_pow]
  congr 1
  rw [BitVec.toNat_sub, BitVec.toNat_add, hcycles, prescale_toNat]
  change (2 ^ 64 - 1 + (250 * us.toNat + 256) % 2 ^ 64) % 2 ^ 64 = _
  omega

include hpos

/-- The longest interval still fits the counter, rounded up. -/
theorem timerTicks_eq_wholeCounts : timerTicks us = wholeCounts us := by
  have hcounts := wholeCounts_toNat hmax
  rw [timArmTimerMaxDeltaUs_eq] at hmax
  have hload : timLoadMax.toNat = 8388607 := rfl
  have hne : wholeCounts us ≠ 0 := fun h => by
    rw [h] at hcounts
    change 0 = _ at hcounts
    omega
  have hle : ¬ wholeCounts us > timLoadMax := fun h => by
    have := BitVec.lt_def.mp h
    omega
  rw [timerTicks_eq, if_neg hne, if_neg hle]

end Counts

section Rearm
variable (deadline now : BitVec 64)

theorem one_le_rearmUsec : 1 ≤ (rearmUsec deadline now).toNat := by
  rw [rearmUsec_toNat]
  exact le_min (le_max_left _ _) (by decide)

theorem rearmUsec_le : (rearmUsec deadline now).toNat ≤ timArmTimerMaxDeltaUs.toNat := by
  rw [rearmUsec_toNat]
  exact min_le_right _ _

theorem exactInterval : ExactInterval deadline now := by
  have hmax := rearmUsec_le deadline now
  have hcycles := timerCycles_toNat hmax
  have hcounts := wholeCounts_toNat hmax
  have hticks := timerTicks_eq_wholeCounts (one_le_rearmUsec deadline now) hmax
  rw [timArmTimerMaxDeltaUs_eq] at hmax
  refine ⟨fun h => ?_, BitVec.eq_of_toNat_eq ?_, ?_, ?_, ?_, hticks, ?_⟩
  · rw [BitVec.usubOverflow, decide_eq_false_iff_not, not_lt]
    exact (BitVec.lt_def.mp h).le
  · rw [BitVec.toNat_setWidth_of_le (by decide), rearmUsec_toNat, rearmDelta_toNat]
  · rw [BitVec.umulOverflow, clockRate_toNat, BitVec.toNat_setWidth_of_le (by decide),
      decide_eq_false_iff_not]
    omega
  · rw [BitVec.uaddOverflow, hcycles, prescale_toNat, decide_eq_false_iff_not]
    omega
  · rw [BitVec.usubOverflow, BitVec.toNat_add, hcycles, prescale_toNat, decide_eq_false_iff_not]
    rw [Nat.mod_eq_of_lt (by omega), not_lt]
    exact (show 1 ≤ 256 by decide).trans (Nat.le_add_left 256 _)
  · apply BitVec.eq_of_toNat_eq
    rw [BitVec.toNat_setWidth_of_le (by decide), BitVec.toNat_setWidth, hticks, hcounts]
    omega

end Rearm

/-- Re-arming loads the counts of the earliest deadline, rounded up, without losing any. -/
theorem hvVtimerRearmPhysical_interval (h : Hyp P)
    (hlive : ∃ i : VmIdx P, hasLiveTimer (h.vcpu i.castSucc) = true) :
    ∃ m, IsLeast h.sched.deadlines m ∧
      let now := (h.sysClo 0).setWidth 64
      let interval := min (deadlineDistance m now) timArmTimerMaxDeltaUs.toNat
      let load := (hvVtimerRearmPhysical h).armTimer.load.toNat
      1 ≤ load ∧ load ≤ timLoadMax.toNat ∧
        250 * interval ≤ 256 * load ∧ 256 * load < 250 * interval + 256 ∧
        ExactInterval m now := by
  have hleast := earliestDeadline_least h
  rcases hm : earliestDeadline h with - | m <;> rw [hm] at hleast
  · obtain ⟨i, hi⟩ := hlive
    have hmem : (h.vcpu i.castSucc).timer.deadline ∈ h.sched.deadlines := by
      rw [deadlines_eq]
      exact ⟨i, List.mem_finRange i, hi, rfl⟩
    rw [show h.sched.deadlines = ∅ from hleast] at hmem
    exact absurd hmem (Set.notMem_empty _)
  · refine ⟨m, hleast, ?_⟩
    have harmed : (hvVtimerRearmPhysical h).armTimer.load =
        (timerTicks (rearmUsec m ((h.sysClo 0).setWidth 64))).setWidth 32 := by
      rw [hvVtimerRearmPhysical_eq hm]
      rfl
    dsimp only
    rw [harmed]
    generalize (h.sysClo 0).setWidth 64 = now
    have hexact := exactInterval m now
    have hpos := one_le_rearmUsec m now
    have hmax := rearmUsec_le m now
    have hload : ((timerTicks (rearmUsec m now)).setWidth 32).toNat =
        (250 * (rearmUsec m now).toNat + 255) / 256 := by
      rw [← wholeCounts_toNat hmax, ← hexact.unsaturated]
      conv_rhs => rw [← hexact.load, BitVec.toNat_setWidth_of_le (by decide)]
    rw [timArmTimerMaxDeltaUs_eq] at hmax
    have hlimit : timLoadMax.toNat = 8388607 := rfl
    rw [deadlineDistance_eq, ← rearmUsec_toNat, hload]
    exact ⟨by omega, by omega, by omega, by omega, hexact⟩

theorem hvVtimerRearmPhysical_interval_overdue :
    1 ≤ (hvVtimerRearmPhysical overdueGuest).armTimer.load.toNat := by
  obtain ⟨m, -, hone, -⟩ := hvVtimerRearmPhysical_interval overdueGuest ⟨firstVm _, by decide⟩
  exact hone

end PiPervisor.Hv
