import PiPervisor.Hv.Runs

/-! # The vCPU that runs

In every state of a run exactly one vCPU is running, it is the current one, and
the control registers are set up for it.
-/
namespace PiPervisor.Hv
open Stage2 Library.BitField

variable {P : Platform} {b : Boot P} {r : RunState P}

section Scheduling

/-- The states of the vCPUs and the scheduler's two records of the current one agree. -/
structure OneRuns (b : Boot P) (r : RunState P) : Prop where
  unique : ∃! k, (r.hyp.vcpu k).state = .running
  current : ∀ k, (r.hyp.vcpu k).state = .running ↔ r.hyp.scheduler.curVcpu = some k
  index : r.hyp.scheduler.curVcpu = some r.hyp.scheduler.curIdx
  idle : (r.hyp.vcpu (hvIdleVcpuIdx P)).state = .running ∧
      r.hyp.scheduler.curVcpu = some (hvIdleVcpuIdx P) ∨
    (r.hyp.vcpu (hvIdleVcpuIdx P)).state = .idle
  unused : ∀ i, b.guests i = none → (r.hyp.vcpu i.castSucc).state = .idle ∧
    r.hyp.scheduler.curVcpu ≠ some i.castSucc ∧ r.lastTrap i.castSucc = none
  conserving : r.hyp.scheduler.curVcpu = some (hvIdleVcpuIdx P) →
    ∀ i : VmIdx P, (r.hyp.vcpu i.castSucc).state ≠ .runnable

theorem Running.oneRuns (hr : Running b r) : OneRuns b r := by
  obtain ⟨c, hs⟩ := hr.settled
  have hrunning (k : VcpuIdx P) : (r.hyp.vcpu k).state = .running ↔ k = c := by
    refine ⟨fun hk => ?_, fun hk => hk ▸ hs.running⟩
    by_contra hne
    exact hs.others k hne hk
  have hcur (k : VcpuIdx P) : r.hyp.scheduler.curVcpu = some k ↔ k = c := by
    rw [hs.current, Option.some.injEq]
    exact eq_comm
  refine ⟨⟨c, hs.running, fun k hk => (hrunning k).mp hk⟩, fun k => ?_, ?_, ?_, fun i hi => ?_, ?_⟩
  · exact (hrunning k).trans (hcur k).symm
  · rw [hs.current, hs.index]
  · rcases hs.idle with hidle | ⟨hc, hidle⟩
    · exact .inr hidle
    · exact .inl ⟨hidle, (hcur _).mpr hc.symm⟩
  · obtain ⟨hidle, hne⟩ := hs.unused i hi
    exact ⟨hidle, fun hc => hne ((hcur _).mp hc).symm, hr.unused i hi⟩
  · exact fun hc => hs.working ((hcur _).mp hc).symm

/-- Between two exceptions exactly one vCPU is running, and the scheduler's records agree on which. -/
theorem run_oneRuns (b : Boot P) (ts : List Trap) (r : RunState P) (h : b.run ts = some r) :
    OneRuns b r :=
  (b.run_running h).oneRuns

theorem run_oneRuns_after_yield : ∃ r, (twoGuests 0).run [hypercallTrap hypercallYield 0,
    hypercallTrap hypercallTimerDelayTicks 100] = some r ∧ OneRuns (twoGuests 0) r := by
  obtain ⟨r, hr⟩ := twoGuests_runs
  exact ⟨r, hr, run_oneRuns (twoGuests 0) _ r hr⟩

end Scheduling

section Controls

/-- The fields of VTTBR: address of the root table, and VMID. -/
def vttbrBaddr (vttbr : BitVec 64) : ℕ := vttbr.toNat % 2 ^ 40
def vttbrVmid (vttbr : BitVec 64) : ℕ := vttbr.toNat / 2 ^ 48 % 2 ^ 8

/-- The two fields do not overlap; the VMID is reduced to its eight bits. -/
theorem toNat_hvMmuVttbrForVm (vm : HvVm) (ha : vm.stage2.rootPa.toNat % 4096 = 0)
    (hb : vm.stage2.rootPa.toNat < 2 ^ 40) : (hvMmuVttbrForVm vm).toNat =
      vm.vmid.toNat % 2 ^ 8 * 2 ^ 48 + vm.stage2.rootPa.toNat := by
  have hvmid : (vm.vmid.setWidth 64 &&& vttbrVmidMask).toNat = vm.vmid.toNat % 2 ^ 8 := by
    rw [toNat_and_low _ _ 8 (by decide), BitVec.toNat_setWidth,
      Nat.mod_eq_of_lt (vm.vmid.isLt.trans (by decide))]
  have hfield : ((vm.vmid.setWidth 64 &&& vttbrVmidMask) <<< vttbrVmidShift).toNat =
      vm.vmid.toNat % 2 ^ 8 * 2 ^ 48 := by
    rw [BitVec.toNat_shiftLeft, hvmid, Nat.shiftLeft_eq, vttbrVmidShift]
    omega
  have hbaddr : vm.stage2.rootPa &&& vttbrBaddrMask = vm.stage2.rootPa :=
    and_addrMask_eq_self vm.stage2.rootPa ha hb
  rw [hvMmuVttbrForVm, hbaddr, toNat_or_low _ _ 48 (by rw [hfield]; omega) (by omega), hfield]

/-- The control registers suit vCPU `c`; HCR is otherwise as the main program has set it up before
it enters the first vCPU. -/
structure ControlsFit (b : Boot P) (h : Hyp P) (c : VcpuIdx P) : Prop where
  vi : h.cpu.hcr &&& hcrVi ≠ 0 ↔ (h.vcpu c).virqPending ≠ 0
  twi : h.cpu.hcr &&& hcrTwi ≠ 0 ↔ c ≠ hvIdleVcpuIdx P
  vm : h.cpu.hcr &&& hcrVm ≠ 0 ↔ (h.vcpu c).vm.isSome
  baddr : ∀ i, (h.vcpu c).vm = some i →
    vttbrBaddr h.cpu.vttbr = (h.scheduler.vm i).stage2.rootPa.toNat
  vmid : ∀ i, (h.vcpu c).vm = some i →
    vttbrVmid h.cpu.vttbr = (h.scheduler.vm i).vmid.toNat % 2 ^ 8 ∧
      (P.hvMaxVms ≤ 2 ^ 8 → vttbrVmid h.cpu.vttbr = (h.scheduler.vm i).vmid.toNat)
  other : h.cpu.hcr &&& ~~~(hcrVm ||| hcrVi ||| hcrTwi) =
    b.hcr &&& ~~~(hcrVm ||| hcrVi ||| hcrTwi)

/-- The VM of a slot has an aligned root table in the pools. -/
theorem VmsBooted.rootPa {m : Core P} (hv : VmsBooted m) (i : VmIdx P) :
    (m.scheduler.vm i).stage2.rootPa.toNat % 4096 = 0 ∧
      (m.scheduler.vm i).stage2.rootPa.toNat < 2 ^ 40 := by
  obtain ⟨href, -⟩ := hv i
  obtain ⟨-, t, ht⟩ := href.refines
  have hh := ht.holds
  rw [hh.rootPa, hh.toNat_addr (by decide)]
  exact ⟨tableAddr_aligned _ _, tableAddr_lt hh.id_lt (by decide)⟩

theorem Running.controlsFit (hr : Running b r) {c : VcpuIdx P}
    (hc : r.hyp.scheduler.curVcpu = some c) : ControlsFit b r.hyp c := by
  obtain ⟨j, hs⟩ := hr.settled
  obtain rfl : j = c := Option.some.inj (hs.current.symm.trans hc)
  have hvttbr (i : VmIdx P) (hi : (r.hyp.vcpu j).vm = some i) : r.hyp.cpu.vttbr.toNat =
      (r.hyp.scheduler.vm i).vmid.toNat % 2 ^ 8 * 2 ^ 48 +
        (r.hyp.scheduler.vm i).stage2.rootPa.toNat := by
    obtain ⟨ha, hb⟩ := hr.vms.rootPa i
    rw [hs.controls.vttbr i hi, toNat_hvMmuVttbrForVm _ ha hb]
  refine ⟨hs.synced, hs.controls.twi, hs.controls.vm, fun i hi => ?_, fun i hi => ?_,
    hs.controls.other⟩
  · have hb := (hr.vms.rootPa i).2
    rw [vttbrBaddr, hvttbr i hi]
    omega
  · have hb := (hr.vms.rootPa i).2
    have hvmid : vttbrVmid r.hyp.cpu.vttbr = (r.hyp.scheduler.vm i).vmid.toNat % 2 ^ 8 := by
      rw [vttbrVmid, hvttbr i hi]
      omega
    refine ⟨hvmid, fun hmax => ?_⟩
    have hi := i.isLt
    rw [hvmid, (hr.vms i).2, BitVec.toNat_ofNat]
    omega

/-- Whenever a handler returns, the control registers are those of the vCPU that goes on. -/
theorem run_controlsFit (b : Boot P) (ts : List Trap) (r : RunState P) (c : VcpuIdx P)
    (hrun : b.run ts = some r) (hc : r.hyp.scheduler.curVcpu = some c) : ControlsFit b r.hyp c :=
  (b.run_running hrun).controlsFit hc

theorem run_controlsFit_after_yield : ∃ r c, (twoGuests 0).run [hypercallTrap hypercallYield 0,
    hypercallTrap hypercallTimerDelayTicks 100] = some r ∧
      r.hyp.scheduler.curVcpu = some c ∧ ControlsFit (twoGuests 0) r.hyp c := by
  obtain ⟨r, hr⟩ := twoGuests_runs
  obtain ⟨c, hs⟩ := ((twoGuests 0).run_running hr).settled
  exact ⟨r, c, hr, hs.current, run_controlsFit (twoGuests 0) _ r c hr hs.current⟩

end Controls

end PiPervisor.Hv
