import PiPervisor.Hv.Runs

/-! # Which guests a timer interrupt wakes

A guest that waits for a deadline that has passed is woken by the next BCM
timer interrupt exactly if its timer source is free. A guest may block with the
source still pending or active; its timer then moves on without waking it.
-/
namespace PiPervisor.Hv
open Library.BitField

variable {P : Platform} {b : Boot P}

/-- The interrupts that the handler takes for the BCM timer's. -/
def IsBcmTimerIrq (h : Hyp P) : Prop :=
  h.frame.exceptionType = hypExceptionIrq ∧ genTimIrqPending h = false ∧ timCheckIrq h = true

instance (h : Hyp P) : Decidable (IsBcmTimerIrq h) := by
  unfold IsBcmTimerIrq
  infer_instance

/-- A guest waits for a deadline that has passed. -/
def Overdue (now : BitVec 64) (vcpu : HvVcpu P) : Prop :=
  vcpu.state = .blocked ∧ vcpu.timer.enabled = true ∧ vcpu.timer.deadline ≤ now

instance (now : BitVec 64) (vcpu : HvVcpu P) : Decidable (Overdue now vcpu) := by
  unfold Overdue
  infer_instance

theorem Overdue.expires {now : BitVec 64} {vcpu : HvVcpu P} (h : Overdue now vcpu) :
    expires now vcpu = true := by
  obtain ⟨hs, he, hd⟩ := h
  rw [Hv.expires, hs, hvVcpuTimerExpired, he, decide_eq_true (p := now ≥ vcpu.timer.deadline) hd]
  rfl

theorem delivered_blocked_iff {now : BitVec 64} (hn : now.toNat < 2 ^ 32) {vcpu : HvVcpu P}
    (h : Overdue now vcpu) : (delivered now vcpu).state ≠ .blocked ↔ ¬ timerBusy vcpu := by
  rw [delivered_state hn]
  by_cases hb : timerBusy vcpu
  · rw [if_neg fun hw => hw.2.2 hb]
    exact iff_of_false (fun hne => hne h.1) (fun hf => hf hb)
  · rw [if_pos ⟨h.1, h.expires, hb⟩]
    exact iff_of_true (by simp) hb

/-- The dispatcher reaches the handler of the BCM timer. -/
theorem hypHandleException_bcmTimer {h : Hyp P} (hirq : IsBcmTimerIrq h) :
    hypHandleException h = handleBcmTimer (traceException h) := by
  obtain ⟨ht, hgen, htim⟩ := hirq
  obtain ⟨uart, he⟩ := traceException_eq h
  have hgen' : genTimIrqPending (traceException h) = false := by
    rw [he]
    exact hgen
  have htim' : timCheckIrq (traceException h) = true := by
    rw [he]
    exact htim
  rw [hypHandleException_irq ht, handleIrq, hgen', htim']
  rfl

/-- The timer interrupt always returns, and it wakes a guest that is overdue exactly if the timer
source of the guest is neither pending nor active. -/
theorem timer_irq_wakes_iff (b : Boot P) (ts : List Trap) (r : RunState P) (t : Trap)
    (hrun : b.run ts = some r) (hirq : IsBcmTimerIrq (takeTrap r.hyp t)) :
    ∃ h', hypHandleException (takeTrap r.hyp t) = .ok (.actionReturn, h') ∧
      ∀ i : VmIdx P, Overdue ((t.sysClo 0).setWidth 64) (r.hyp.vcpu i.castSucc) →
        ((h'.vcpu i.castSucc).state ≠ .blocked ↔ ¬ timerBusy (r.hyp.vcpu i.castSucc)) := by
  obtain ⟨c, hs⟩ := (b.run_running hrun).settled
  have hcore := toCore_traceException (takeTrap r.hyp t)
  obtain ⟨uart, he⟩ := traceException_eq (takeTrap r.hyp t)
  have htime : irqTime (traceException (takeTrap r.hyp t)) = (t.sysClo 0).setWidth 64 := by
    rw [he]
    rfl
  obtain ⟨h', hr, -, hblocked⟩ := handleBcmTimer_spec (hcore ▸ hs.takeTrap t)
  refine ⟨h', (hypHandleException_bcmTimer hirq).trans hr, fun i hi => ?_⟩
  have hnow := irqTime_lt (traceException (takeTrap r.hyp t))
  rw [htime] at hnow
  rw [← delivered_blocked_iff hnow hi, not_iff_not, hblocked i, hcore, htime]
  rfl

/-- A delay that is over when the interrupt comes. -/
theorem timer_irq_wakes_first_delay : ∃ r h',
    (twoGuests 0).run [hypercallTrap hypercallTimerDelayTicks 100] = some r ∧
      Overdue 700 (r.hyp.vcpu 0) ∧
      hypHandleException (takeTrap r.hyp (timerTrap 700)) = .ok (.actionReturn, h') ∧
      (h'.vcpu 0).state ≠ .blocked := by
  have heval : ((twoGuests 0).run [hypercallTrap hypercallTimerDelayTicks 100]).map (fun r =>
      decide (IsBcmTimerIrq (takeTrap r.hyp (timerTrap 700)) ∧
        Overdue 700 (r.hyp.vcpu 0) ∧ ¬ timerBusy (r.hyp.vcpu 0))) = some true := by
    decide +kernel
  obtain ⟨r, hr, he⟩ := Option.map_eq_some_iff.mp heval
  obtain ⟨hirq, hover, hfree⟩ := of_decide_eq_true he
  obtain ⟨h', hh', hwake⟩ := timer_irq_wakes_iff (twoGuests 0) _ r (timerTrap 700) hr hirq
  exact ⟨r, h', hr, hover, hh', (hwake (firstVm _) hover).mpr hfree⟩

/-- A guest that delays again before it has claimed the interrupt of its first delay. -/
theorem timer_irq_misses_second_delay : ∃ r h',
    (twoGuests 0).run [hypercallTrap hypercallTimerDelayTicks 100, timerTrap 700,
      hypercallTrap hypercallYield 0, hypercallTrap hypercallTimerDelayTicks 100] = some r ∧
      IsBcmTimerIrq (takeTrap r.hyp (timerTrap 700)) ∧ Overdue 700 (r.hyp.vcpu 0) ∧
      hypHandleException (takeTrap r.hyp (timerTrap 700)) = .ok (.actionReturn, h') ∧
      (h'.vcpu 0).state = .blocked := by
  have heval : ((twoGuests 0).run [hypercallTrap hypercallTimerDelayTicks 100, timerTrap 700,
      hypercallTrap hypercallYield 0, hypercallTrap hypercallTimerDelayTicks 100]).map (fun r =>
        (decide (IsBcmTimerIrq (takeTrap r.hyp (timerTrap 700)) ∧ Overdue 700 (r.hyp.vcpu 0)),
          (hypHandleException (takeTrap r.hyp (timerTrap 700))).toOption.map
            fun p => (p.1, (p.2.vcpu 0).state))) = some (true, some (.actionReturn, .blocked)) := by
    decide +kernel
  obtain ⟨r, hr, he⟩ := Option.map_eq_some_iff.mp heval
  obtain ⟨hd, hstate⟩ := Prod.mk.inj he
  obtain ⟨hirq, hover⟩ := of_decide_eq_true hd
  obtain ⟨h', hh', hblocked⟩ := exists_ok_of_toOption (f := fun h => (h.vcpu 0).state) hstate
  exact ⟨r, h', hr, hirq, hover, hh', hblocked⟩

end PiPervisor.Hv
