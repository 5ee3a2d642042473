import Mathlib.Order.Bounds.Basic
import PiPervisor.Hv.IrqSpec
import PiPervisor.Hv.Sched

/-! # The physical timer and the deadlines

The one ARM timer is programmed for the earliest deadline of the guests whose timer
counts, and switched off when there is none. Nothing but the re-arming touches it.
-/
namespace PiPervisor.Hv

variable {P : Platform}

def HvVcpu.status (v : HvVcpu P) : VcpuStatus := ⟨v.state, v.virqPending, v.virqActive, v.timer⟩

/-- The scheduling state of the machine. -/
def Core.sched (m : Core P) : Sched P := ⟨m.scheduler.curIdx, fun k => (m.vcpu k).status⟩

/-- What the ARM timer is loaded with, or none while its interrupt is disabled. -/
def Hyp.alarm (h : Hyp P) : Option (BitVec 32) :=
  if h.irq.enabledBasic &&& 1#32 <<< irqArmTimerInt = 0 then none else some h.armTimer.load

/-- The microseconds that are left of a deadline at a tick, within the range of the timer. -/
def alarmDelta (deadline : BitVec 64) (tick : BitVec 32) : ℕ :=
  min (max 1 (deadline.toNat - tick.toNat)) timArmTimerMaxDeltaUs.toNat

/-- The load value for a deadline, computed at a tick. -/
def alarmLoad (deadline : BitVec 64) (tick : BitVec 32) : BitVec 32 :=
  (timerTicks (BitVec.ofNat 32 (alarmDelta deadline tick))).setWidth 32

/-- The timer is off if there is no deadline, else programmed at `tick` for the earliest. -/
def Covered (deadlines : Set (BitVec 64)) (tick : BitVec 32) : Option (BitVec 32) → Prop
  | none => deadlines = ∅
  | some load => ∃ deadline, IsLeast deadlines deadline ∧ load = alarmLoad deadline tick

theorem hasLiveTimer_eq (v : HvVcpu P) : hasLiveTimer v = v.status.live := by
  rw [hasLiveTimer, VcpuStatus.live, VcpuStatus.counts, Bool.not_or, Bool.not_not]
  rfl

section Earliest

/-- The deadlines that count among the slots of a list. -/
def deadlinesOf (h : Hyp P) (l : List (VmIdx P)) : Set (BitVec 64) :=
  { d | ∃ i ∈ l, hasLiveTimer (h.vcpu i.castSucc) = true ∧ (h.vcpu i.castSucc).timer.deadline = d }

theorem deadlines_eq (h : Hyp P) : h.sched.deadlines = deadlinesOf h (List.finRange P.hvMaxVms) := by
  ext d
  apply exists_congr
  intro i
  rw [hasLiveTimer_eq]
  exact (and_iff_right (List.mem_finRange i)).symm

/-- The earlier of two deadlines, as the scan keeps it. -/
def earlier (h : Hyp P) (earliest : Option (BitVec 64)) (i : VmIdx P) : Option (BitVec 64) :=
  let vcpu := h.vcpu i.castSucc
  if !hasLiveTimer vcpu then earliest
  else
    match earliest with
    | none => some vcpu.timer.deadline
    | some e => if vcpu.timer.deadline < e then some vcpu.timer.deadline else some e

/-- The result of a scan is the least of a set of deadlines, or none if the set is empty. -/
def Least (deadlines : Set (BitVec 64)) : Option (BitVec 64) → Prop
  | none => deadlines = ∅
  | some e => IsLeast deadlines e

theorem earlier_least {h : Hyp P} {seen : Set (BitVec 64)} {acc : Option (BitVec 64)}
    (hacc : Least seen acc) (i : VmIdx P) :
    Least (seen ∪ deadlinesOf h [i]) (earlier h acc i) := by
  rw [earlier.eq_def]
  dsimp only
  by_cases hl : hasLiveTimer (h.vcpu i.castSucc) = true
  · have hone : deadlinesOf h [i] = {(h.vcpu i.castSucc).timer.deadline} := by
      ext d
      rw [Set.mem_singleton_iff]
      constructor
      · rintro ⟨j, hj, -, rfl⟩
        rw [List.mem_singleton.mp hj]
      · exact fun hd => ⟨i, List.mem_singleton_self i, hl, hd.symm⟩
    rw [if_neg (by rw [hl]; decide), hone]
    cases acc with
    | none =>
      have hempty : seen = ∅ := hacc
      change IsLeast _ _
      rw [hempty, Set.empty_union]
      refine ⟨Set.mem_singleton _, fun d hd => ?_⟩
      rw [Set.mem_singleton_iff.mp hd]
      exact BitVec.le_refl _
    | some e =>
      have hleast : IsLeast seen e := hacc
      dsimp only
      by_cases hlt : (h.vcpu i.castSucc).timer.deadline < e
      · rw [if_pos hlt]
        refine ⟨.inr rfl, fun d hd => ?_⟩
        rcases hd with hd | hd
        · exact BitVec.le_def.mpr ((BitVec.lt_def.mp hlt).le.trans (BitVec.le_def.mp (hleast.2 hd)))
        · rw [Set.mem_singleton_iff.mp hd]
          exact BitVec.le_refl _
      · rw [if_neg hlt]
        refine ⟨.inl hleast.1, fun d hd => ?_⟩
        rcases hd with hd | hd
        · exact hleast.2 hd
        · rw [Set.mem_singleton_iff.mp hd]
          exact BitVec.not_lt.mp hlt
  · have hnone : deadlinesOf h [i] = ∅ := by
      apply Set.eq_empty_of_forall_notMem
      intro d hd
      obtain ⟨j, hj, hlive, -⟩ := hd
      exact hl (List.mem_singleton.mp hj ▸ hlive)
    rw [Bool.not_eq_true] at hl
    rw [hl, hnone, Set.union_empty]
    exact hacc

/-- The loop of the scan finds the earliest deadline. -/
theorem earliestDeadline_least (h : Hyp P) : Least h.sched.deadlines (earliestDeadline h) := by
  have hloop (l : List (VmIdx P)) (seen : Set (BitVec 64)) (acc : Option (BitVec 64))
      (hacc : Least seen acc) : Least (seen ∪ deadlinesOf h l) (l.foldl (earlier h) acc) := by
    induction l generalizing seen acc with
    | nil =>
      have hnil : deadlinesOf h [] = ∅ :=
        Set.eq_empty_of_forall_notMem fun d ⟨i, hi, _⟩ => List.not_mem_nil hi
      rw [hnil, Set.union_empty]
      exact hacc
    | cons i l ih =>
      have hcons : deadlinesOf h (i :: l) = deadlinesOf h [i] ∪ deadlinesOf h l := by
        ext d
        simp only [deadlinesOf, Set.mem_union, Set.mem_ofPred_eq, List.mem_cons, List.not_mem_nil,
          or_false, exists_eq_or_imp, exists_eq_left]
      rw [hcons, ← Set.union_assoc]
      exact ih _ _ (earlier_least hacc i)
  have hall := hloop (List.finRange P.hvMaxVms) ∅ none rfl
  rw [Set.empty_union, ← deadlines_eq] at hall
  exact hall

end Earliest

section Rearm

/-- The microseconds until a deadline, with the limit of the timer. -/
def rearmDelta (deadline now : BitVec 64) : BitVec 64 :=
  let delta := if deadline > now then deadline - now else 1
  if delta > timArmTimerMaxDeltaUs then timArmTimerMaxDeltaUs else delta

/-- The microseconds that the driver of the timer is called with. -/
def rearmUsec (deadline now : BitVec 64) : BitVec 32 := (rearmDelta deadline now).setWidth 32

/-- The subtraction does not wrap. -/
theorem rearmDelta_toNat (deadline now : BitVec 64) : (rearmDelta deadline now).toNat =
    min (max 1 (deadline.toNat - now.toNat)) timArmTimerMaxDeltaUs.toNat := by
  have hdelta : (if deadline > now then deadline - now else 1).toNat =
      max 1 (deadline.toNat - now.toNat) := by
    by_cases hgt : deadline > now
    · have hlt : now.toNat < deadline.toNat := BitVec.lt_def.mp hgt
      have hdeadline := deadline.isLt
      rw [if_pos hgt, BitVec.toNat_sub, Nat.max_eq_right (by omega)]
      omega
    · have hle : deadline.toNat ≤ now.toNat := Nat.not_lt.mp (mt BitVec.lt_def.mpr hgt)
      rw [if_neg hgt, Nat.sub_eq_zero_of_le hle]
      rfl
  rw [rearmDelta, ← hdelta]
  generalize (if deadline > now then deadline - now else 1) = delta
  by_cases hgt : delta > timArmTimerMaxDeltaUs
  · rw [if_pos hgt, Nat.min_eq_right (BitVec.lt_def.mp hgt).le]
  · rw [if_neg hgt, Nat.min_eq_left (Nat.not_lt.mp (mt BitVec.lt_def.mpr hgt))]

theorem timArmTimerMaxDeltaUs_eq : timArmTimerMaxDeltaUs.toNat = 8589933 := by decide

/-- Nor does the conversion to 32 bits lose anything. -/
theorem rearmUsec_toNat (deadline now : BitVec 64) : (rearmUsec deadline now).toNat =
    min (max 1 (deadline.toNat - now.toNat)) timArmTimerMaxDeltaUs.toNat := by
  have hmax := timArmTimerMaxDeltaUs_eq
  rw [rearmUsec, BitVec.toNat_setWidth, rearmDelta_toNat]
  omega

theorem rearmUsec_eq (deadline : BitVec 64) (tick : BitVec 32) :
    rearmUsec deadline (tick.setWidth 64) = BitVec.ofNat 32 (alarmDelta deadline tick) := by
  apply BitVec.eq_of_toNat_eq
  have hfit := (rearmUsec deadline (tick.setWidth 64)).isLt
  rw [rearmUsec_toNat, BitVec.toNat_setWidth_of_le (by decide)] at hfit ⊢
  rw [BitVec.toNat_ofNat, alarmDelta, Nat.mod_eq_of_lt hfit]

theorem hvVtimerRearmPhysical_eq {h : Hyp P} {e : BitVec 64} (he : earliestDeadline h = some e) :
    hvVtimerRearmPhysical h =
      timArmUsec (timSysGetTicks h).2 (rearmUsec e ((h.sysClo 0).setWidth 64)) := by
  rw [hvVtimerRearmPhysical, he]
  rfl

/-- Re-arming covers the deadlines, from whatever state. -/
theorem hvVtimerRearmPhysical_covered (h : Hyp P) :
    Covered h.sched.deadlines (h.sysClo 0) (hvVtimerRearmPhysical h).alarm := by
  have hleast := earliestDeadline_least h
  rcases he : earliestDeadline h with - | e
  · rw [he] at hleast
    rw [hvVtimerRearmPhysical, he]
    have hoff : (timDisableIrq h).alarm = none := by
      apply if_pos
      change h.irq.enabledBasic &&& ~~~(1#32 <<< irqArmTimerInt) &&& _ = 0
      rw [BitVec.and_assoc]
      simp [irqArmTimerInt]
    dsimp only
    rw [hoff]
    exact hleast
  · rw [he] at hleast
    have hon (h : Hyp P) (us : BitVec 32) :
        (timArmUsec h us).alarm = some ((timerTicks us).setWidth 32) := by
      apply if_neg
      change (_ ||| 1#32 <<< irqArmTimerInt) &&& 1#32 <<< irqArmTimerInt ≠ 0
      intro hz
      have hbit := congrArg (fun x : BitVec 32 => x.getLsbD 0) hz
      simp [irqArmTimerInt] at hbit
    rw [hvVtimerRearmPhysical_eq he, hon, rearmUsec_eq]
    exact ⟨e, hleast, rfl⟩

end Rearm

section Frame
variable (h : Hyp P) (i : VcpuIdx P)

@[simp] theorem alarm_setVcpu (v : HvVcpu P) : (h.setVcpu i v).alarm = h.alarm := rfl

theorem SameDevices.alarm {h h' : Hyp P} (hd : SameDevices h h') : h'.alarm = h.alarm := by
  rw [hd.eq]
  rfl

theorem alarm_hvSchedulerSwitchTo : (hvSchedulerSwitchTo h i).2.alarm = h.alarm := by
  rw [hvSchedulerSwitchTo]
  dsimp only
  rw [(sameDevices_takeOver _ i).alarm]
  rcases h.scheduler.curVcpu with - | c <;> dsimp only
  · split <;> rfl
  · split <;> exact (sameDevices_stopRunning _ c).alarm

theorem alarm_hvSchedulerEnterIdle : (hvSchedulerEnterIdle h).2.alarm = h.alarm := by
  by_cases hc : h.scheduler.curVcpu = some (hvIdleVcpuIdx P)
  · exact (sameDevices_hvSchedulerEnterIdle h hc).alarm
  · rw [hvSchedulerEnterIdle, if_neg hc]
    exact alarm_hvSchedulerSwitchTo h _

theorem switches_hvVtimerRearmPhysical : (hvVtimerRearmPhysical h).switches = h.switches := by
  rw [hvVtimerRearmPhysical]
  split <;> rfl

theorem alarm_hvSchedulerYield : (hvSchedulerYield h).2.alarm = h.alarm := by
  rw [hvSchedulerYield]
  split
  · rfl
  · dsimp only
    split
    · rfl
    · split
      · rfl
      · exact alarm_hvSchedulerSwitchTo _ _

theorem alarm_hvSchedulerAdvance : (hvSchedulerAdvance h).2.alarm = h.alarm := by
  rw [hvSchedulerAdvance]
  split
  · exact alarm_hvSchedulerEnterIdle h
  · rename_i cur hc
    dsimp only
    split
    · exact (alarm_hvSchedulerEnterIdle _).trans (sameDevices_stopRunning h cur).alarm
    · exact (alarm_hvSchedulerSwitchTo _ _).trans (sameDevices_stopRunning h cur).alarm

end Frame

end PiPervisor.Hv
