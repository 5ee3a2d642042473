import PiPervisor.Hv.Runs

/-! # What a guest can do to the machine

A guest that executes HVC or WFI or takes a stage-2 abort gives control back to
a vCPU in all cases but three: an HVC whose immediate is not that of the ABI, a
number that the dispatcher does not know, and a frequency request that divides
by zero.
-/
namespace PiPervisor.Hv
open Library.BitField

variable {P : Platform} {b : Boot P} {c : VcpuIdx P} {h : Hyp P}

/-- A synchronous exception that a guest can raise: HVC, WFI or a stage-2 abort. -/
def IsGuestSync (f : HypExceptState) : Prop :=
  f.exceptionType = hypExceptionLowerSync ∧
    (hsrEc f.hsr = hsrEcHvcA32 ∨
      hsrEc f.hsr = hsrEcWfiWfe ∧ hsrIss f.hsr &&& hsrWfiWfeIsWfe = 0 ∨
      hsrEc f.hsr = hsrEcPrefetchAbortLower ∨ hsrEc f.hsr = hsrEcDataAbortLower)

instance (f : HypExceptState) : Decidable (IsGuestSync f) := by
  unfold IsGuestSync
  infer_instance

/-- The period of a running timer is a non-zero multiple of 2^32. -/
def PeriodNarrowsToZero (v : HvVcpu P) : Prop :=
  v.timer.enabled = true ∧ v.timer.period ≠ 0 ∧ v.timer.period.setWidth 32 = 0

/-- The HVCs that are served. -/
def HvcServed (f : HypExceptState) (v : HvVcpu P) : Prop :=
  hsrIssImm16 f.hsr = hypercallHvcImm ∧ HypercallKnown (f.r 0) ∧
    ¬ (f.r 0 = hypercallTimerGetFreq ∧ PeriodNarrowsToZero v)

theorem getFrequency_eq_none_iff (v : HvVcpu P) :
    hvVcpuTimerGetFrequency v = none ↔ PeriodNarrowsToZero v := by
  rw [hvVcpuTimerGetFrequency, PeriodNarrowsToZero]
  by_cases hstopped : (!v.timer.enabled) = true ∨ v.timer.period = 0
  · rw [if_pos hstopped]
    apply iff_of_false (by simp)
    intro hn
    rcases hstopped with he | hp
    · rw [hn.1] at he
      cases he
    · exact hn.2.1 hp
  · rw [if_neg hstopped]
    rw [not_or, Bool.not_eq_true, Bool.not_eq_false'] at hstopped
    by_cases hz : v.timer.period.setWidth 32 = 0
    · rw [if_pos hz]
      exact iff_of_true rfl ⟨hstopped.1, hstopped.2, hz⟩
    · rw [if_neg hz]
      exact iff_of_false (by simp) fun hn => hz hn.2.2

theorem hypercall_returns_iff (hs : Settled b c h.toCore) (hc : c ≠ hvIdleVcpuIdx P) :
    (∃ h', hypHandleGuestHypercall h = .ok (.actionReturn, h')) ↔
      HypercallKnown (h.frame.r 0) ∧
        ¬ (h.frame.r 0 = hypercallTimerGetFreq ∧ PeriodNarrowsToZero (h.vcpu c)) := by
  rw [← getFrequency_eq_none_iff]
  constructor
  · rintro ⟨h', hr⟩
    refine ⟨?_, fun hdiv => ?_⟩
    · by_contra hn
      rw [hypHandleGuestHypercall_unknown hn] at hr
      cases hr
    · rw [hypHandleGuestHypercall_divides hs hc hdiv.1 hdiv.2] at hr
      cases hr
  · rintro ⟨hn, hdiv⟩
    obtain ⟨h', hr, -⟩ := hypHandleGuestHypercall_spec hs hc hn fun hnum hnone => hdiv ⟨hnum, hnone⟩
    exact ⟨h', hr⟩

theorem lowerSync_returns_iff (hs : Settled b c h.toCore) (hc : c ≠ hvIdleVcpuIdx P)
    (hf : IsGuestSync h.frame) :
    (∃ h', handleLowerSync h = .ok (.actionReturn, h')) ↔
      (hsrEc h.frame.hsr = hsrEcHvcA32 → HvcServed h.frame (h.vcpu c)) := by
  rcases hf.2 with hec | ⟨hec, hiss⟩ | hec
  · rw [handleLowerSync_hvc hec]
    by_cases himm : hsrIssImm16 h.frame.hsr = hypercallHvcImm
    · rw [if_pos himm, hypercall_returns_iff hs hc]
      exact ⟨fun hret _ => ⟨himm, hret⟩, fun hserved => (hserved hec).2⟩
    · rw [if_neg himm]
      exact iff_of_false (fun ⟨_, he⟩ => by cases he) (fun hserved => himm (hserved hec).1)
  · obtain ⟨h', hr, -⟩ := hvSchedulerHandleWfi_spec hs
    rw [handleLowerSync_wfi hec hiss, hr]
    refine iff_of_true ⟨h', rfl⟩ fun he => ?_
    rw [hec] at he
    exact absurd he (by decide)
  · obtain ⟨h', hr, -⟩ := handleGuestAbort_spec hs hc hec
    rw [handleLowerSync_abort hec, hr]
    refine iff_of_true ⟨h', rfl⟩ fun he => ?_
    rcases hec with hec | hec <;>
    · rw [hec] at he
      exact absurd he (by decide)

/-- A synchronous exception of a guest is answered with a return, whatever the guest has done,
unless it is a hypercall that the hypervisor does not serve. -/
theorem guest_sync_returns_iff (b : Boot P) (ts : List Trap) (r : RunState P) (i : VmIdx P)
    (t : Trap) (hrun : b.run ts = some r) (hcur : r.hyp.scheduler.curVcpu = some i.castSucc)
    (hsync : IsGuestSync t.frame) :
    (∃ h', hypHandleException (takeTrap r.hyp t) = .ok (.actionReturn, h')) ↔
      (hsrEc t.frame.hsr = hsrEcHvcA32 → HvcServed t.frame (r.hyp.vcpu i.castSucc)) := by
  obtain ⟨c, hs⟩ := (b.run_running hrun).settled
  obtain rfl : c = i.castSucc := Option.some.inj (hs.current.symm.trans hcur)
  have hcore := toCore_traceException (takeTrap r.hyp t)
  have hframe : (traceException (takeTrap r.hyp t)).frame = t.frame := frame_traceException _
  have hiff := lowerSync_returns_iff (h := traceException (takeTrap r.hyp t))
    (hcore ▸ hs.takeTrap t) (castSucc_ne_idle i) (hframe.symm ▸ hsync)
  rw [hframe, hcore] at hiff
  rw [hypHandleException_lowerSync hsync.1]
  exact hiff

/-- A yield of the second guest. -/
theorem guest_sync_returns_yield : ∃ r,
    (twoGuests 0).run [hypercallTrap hypercallTimerDelayTicks 100] = some r ∧
      ∃ h', hypHandleException (takeTrap r.hyp (hypercallTrap hypercallYield 0)) =
        .ok (.actionReturn, h') := by
  have heval : ((twoGuests 0).run [hypercallTrap hypercallTimerDelayTicks 100]).map
      (fun r => r.hyp.scheduler.curVcpu) = some (some 1) := by
    decide +kernel
  obtain ⟨r, hr, hcur⟩ := Option.map_eq_some_iff.mp heval
  refine ⟨r, hr, ?_⟩
  exact (guest_sync_returns_iff (twoGuests 0) _ r ⟨1, by decide⟩ (hypercallTrap hypercallYield 0)
    hr hcur (by decide)).mpr fun _ => ⟨by decide, by decide, fun hf => absurd hf.1 (by decide)⟩

/-- The call that the ABI numbers 4 halts the machine, with both guests still to run. -/
theorem hypercall_advance_halts : ∃ r h', (twoGuests 0).run [] = some r ∧
    r.hyp.scheduler.curVcpu = some 0 ∧ (r.hyp.vcpu 0).vm.isSome ∧
    (r.hyp.vcpu 1).state = .runnable ∧ IsGuestSync (hypercallTrap hypercallAdvance 0).frame ∧
    hypHandleException (takeTrap r.hyp (hypercallTrap hypercallAdvance 0)) =
      .ok (.actionHalt, h') := by
  have heval : ((twoGuests 0).run []).map (fun r =>
      (decide (r.hyp.scheduler.curVcpu = some 0 ∧ (r.hyp.vcpu 0).vm.isSome ∧
        (r.hyp.vcpu 1).state = .runnable),
        (hypHandleException (takeTrap r.hyp (hypercallTrap hypercallAdvance 0))).toOption.map
          fun p => (p.1, ()))) = some (true, some (.actionHalt, ())) := by
    decide +kernel
  obtain ⟨r, hr, he⟩ := Option.map_eq_some_iff.mp heval
  obtain ⟨hd, hhalt⟩ := Prod.mk.inj he
  obtain ⟨hcur, hvm, hstate⟩ := of_decide_eq_true hd
  obtain ⟨h', hh', -⟩ := exists_ok_of_toOption (f := fun _ => ()) hhalt
  exact ⟨r, h', hr, hcur, hvm, hstate, by decide, hh'⟩

end PiPervisor.Hv
