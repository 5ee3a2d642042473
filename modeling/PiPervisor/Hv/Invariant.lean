import PiPervisor.Hv.Switch

/-! # What holds while a vCPU runs

While the handler works for the current vCPU, one vCPU at most is running, the
idle vCPU waits unless it is current, slots without a guest are idle, and the
control registers are those of the current vCPU. When the handler returns, the
current vCPU is running again, its virtual interrupt line is up to date, and the
idle vCPU is current only if no guest can run.
-/
namespace PiPervisor.Hv
open Stage2 Library.BitField Library.ContextSwitch

variable {P : Platform}

/-- The bits of HCR that no vCPU controls. -/
def hcrOther : BitVec 32 := ~~~(hcrVm ||| hcrVi ||| hcrTwi)

/-- HCR as the boot leaves it, up to the bits that follow the vCPU. -/
def Boot.hcr (b : Boot P) : BitVec 32 := if b.routeIrqs then hcrSwio ||| hcrImo else hcrSwio

/-- Guest slot `i` has the VM of its number; the idle vCPU has none. -/
structure Roster (m : Core P) : Prop where
  guest_id : ∀ i : VmIdx P, (m.vcpu i.castSucc).id ≠ hvIdleVcpuId
  guest_vm : ∀ i : VmIdx P, (m.vcpu i.castSucc).vm = some i
  idle_id : (m.vcpu (hvIdleVcpuIdx P)).id = hvIdleVcpuId
  idle_vm : (m.vcpu (hvIdleVcpuIdx P)).vm = none

structure Controls (hcr : BitVec 32) (m : Core P) (c : VcpuIdx P) : Prop where
  twi : m.cpu.hcr &&& hcrTwi ≠ 0 ↔ c ≠ hvIdleVcpuIdx P
  vm : m.cpu.hcr &&& hcrVm ≠ 0 ↔ (m.vcpu c).vm.isSome
  vttbr : ∀ vm, (m.vcpu c).vm = some vm → m.cpu.vttbr = hvMmuVttbrForVm (m.scheduler.vm vm)
  other : m.cpu.hcr &&& hcrOther = hcr &&& hcrOther

/-- The state in the middle of a handler that works for vCPU `c`. -/
structure Handling (b : Boot P) (c : VcpuIdx P) (m : Core P) : Prop where
  current : m.scheduler.curVcpu = some c
  index : m.scheduler.curIdx = c
  roster : Roster m
  others : ∀ k ≠ c, (m.vcpu k).state ≠ .running
  idle : (m.vcpu (hvIdleVcpuIdx P)).state = .idle ∨
    c = hvIdleVcpuIdx P ∧ (m.vcpu (hvIdleVcpuIdx P)).state = .running
  unused : ∀ i, b.guests i = none → (m.vcpu i.castSucc).state = .idle ∧ c ≠ i.castSucc
  controls : Controls b.hcr m c

/-- The virtual interrupt line shows whether the vCPU has a pending interrupt. -/
def Synced (m : Core P) (c : VcpuIdx P) : Prop :=
  m.cpu.hcr &&& hcrVi ≠ 0 ↔ (m.vcpu c).virqPending ≠ 0

/-- No guest vCPU waits for the CPU. -/
def NoneRunnable (m : Core P) : Prop := ∀ i : VmIdx P, (m.vcpu i.castSucc).state ≠ .runnable

/-- The state when a handler has returned to vCPU `c`. -/
structure Settled (b : Boot P) (c : VcpuIdx P) (m : Core P) : Prop extends Handling b c m where
  running : (m.vcpu c).state = .running
  working : c = hvIdleVcpuIdx P → NoneRunnable m
  synced : Synced m c

/-- What a choice of the scheduler changes: which vCPUs are running, runnable or idle. -/
structure Switched (m m' : Core P) : Prop extends Keeps m m' where
  context : m'.registers.context = m.registers.context
  blocked : ∀ k, (m'.vcpu k).state = .blocked ↔ (m.vcpu k).state = .blocked
  exited : ∀ k, (m'.vcpu k).state = .exited ↔ (m.vcpu k).state = .exited

theorem Switched.refl (m : Core P) : Switched m m where
  toKeeps := .refl m
  context := rfl
  blocked _ := .rfl
  exited _ := .rfl

theorem Switched.trans {m m' m'' : Core P} (h : Switched m m') (h' : Switched m' m'') :
    Switched m m'' where
  toKeeps := h.toKeeps.trans h'.toKeeps
  context := h'.context.trans h.context
  blocked k := (h'.blocked k).trans (h.blocked k)
  exited k := (h'.exited k).trans (h.exited k)

theorem castSucc_ne_idle (i : VmIdx P) : i.castSucc ≠ hvIdleVcpuIdx P := Fin.castSucc_ne_last i

/-- Every vCPU but the idle one belongs to a slot. -/
theorem eq_castSucc_of_ne_idle {k : VcpuIdx P} (h : k ≠ hvIdleVcpuIdx P) :
    ∃ i : VmIdx P, k = i.castSucc := by
  obtain ⟨i, rfl⟩ := Fin.exists_castSucc_eq.mpr h
  exact ⟨i, rfl⟩

theorem Roster.keeps {m m' : Core P} (h : Roster m) (hk : Keeps m m') : Roster m' where
  guest_id i := (hk.id _).symm ▸ h.guest_id i
  guest_vm i := (hk.vm _).trans (h.guest_vm i)
  idle_id := (hk.id _).trans h.idle_id
  idle_vm := (hk.vm _).trans h.idle_vm

/-- The test on the id finds the idle vCPU. -/
theorem Roster.id_eq_iff {m : Core P} (h : Roster m) (k : VcpuIdx P) :
    (m.vcpu k).id = hvIdleVcpuId ↔ k = hvIdleVcpuIdx P := by
  by_cases hk : k = hvIdleVcpuIdx P
  · exact iff_of_true (hk ▸ h.idle_id) hk
  · obtain ⟨i, rfl⟩ := eq_castSucc_of_ne_idle hk
    exact iff_of_false (h.guest_id i) hk

theorem Roster.isIdleVcpu {h : Hyp P} (hr : Roster h.toCore) (k : VcpuIdx P) :
    hvSchedulerIsIdleVcpu h (some k) = true ↔ k = hvIdleVcpuIdx P := by
  rw [hvSchedulerIsIdleVcpu, beq_iff_eq]
  exact hr.id_eq_iff k

section Controls
variable {m : Core P} {c j : VcpuIdx P} {hcr : BitVec 32}

/-- Any two of the four parts of HCR are disjoint. -/
theorem hcr_masks_disjoint :
    hcrTwi &&& hcrVm = 0 ∧ hcrTwi &&& hcrVi = 0 ∧ hcrTwi &&& hcrOther = 0 ∧
      hcrVm &&& hcrTwi = 0 ∧ hcrVm &&& hcrVi = 0 ∧ hcrVm &&& hcrOther = 0 ∧
      hcrVi &&& hcrTwi = 0 ∧ hcrVi &&& hcrVm = 0 ∧ hcrVi &&& hcrOther = 0 := by
  decide

/-- The virtual interrupt line is independent of the other controls. -/
theorem Controls.syncVirq (h : Controls hcr m c) (k : VcpuIdx P) :
    Controls hcr (m.syncVirq k) c := by
  obtain ⟨-, -, -, -, -, -, htwi, hvm, hother⟩ := hcr_masks_disjoint
  refine ⟨?_, ?_, h.vttbr, ?_⟩
  · rw [Core.syncVirq, Core.setHcr_hcr, putMask_and_of_disjoint _ htwi]
    exact h.twi
  · rw [Core.syncVirq, Core.setHcr_hcr, putMask_and_of_disjoint _ hvm]
    exact h.vm
  · rw [Core.syncVirq, Core.setHcr_hcr, putMask_and_of_disjoint _ hother]
    exact h.other

theorem synced_syncVirq (m : Core P) (k : VcpuIdx P) : Synced (m.syncVirq k) k := by
  rw [Synced, Core.syncVirq, Core.setHcr_hcr]
  exact (putMask_and_self _ (by decide) _).trans decide_eq_true_iff

/-- Following a vCPU sets up its controls, and keeps the bits it does not own. -/
theorem controls_follow (hother : m.cpu.hcr &&& hcrOther = hcr &&& hcrOther) (j : VcpuIdx P) :
    Controls hcr (m.follow j) j := by
  obtain ⟨-, -, htwi, hvm, -, hvm', -⟩ := hcr_masks_disjoint
  refine ⟨?_, ?_, ?_, ?_⟩
  · change putMask (putMask _ _ _) hcrVm _ &&& hcrTwi ≠ 0 ↔ _
    rw [putMask_and_of_disjoint _ hvm]
    exact (putMask_and_self _ (by decide) _).trans decide_eq_true_iff
  · change putMask (putMask _ _ _) hcrVm _ &&& hcrVm ≠ 0 ↔ _
    exact putMask_and_self _ (by decide) _
  · intro vm hvm
    have hvm : ((m.syncTraps j).vcpu j).vm = some vm := hvm
    simp only [Core.follow, Core.activate, hvm]
  · change putMask (putMask _ _ _) hcrVm _ &&& hcrOther = _
    rw [putMask_and_of_disjoint _ hvm', putMask_and_of_disjoint _ htwi, hother]

end Controls

section Handling
variable {b : Boot P} {c : VcpuIdx P} {m : Core P}

theorem Handling.used (h : Handling b c m) {i : VmIdx P}
    (hs : (m.vcpu i.castSucc).state ≠ .idle) : b.guests i ≠ none :=
  fun hn => hs (h.unused i hn).1

/-- A record may change if nothing but `c` starts to run and idle slots stay idle. -/
theorem Handling.setVcpu (h : Handling b c m) {k : VcpuIdx P} {v : HvVcpu P}
    (hid : v.id = (m.vcpu k).id) (hvm : v.vm = (m.vcpu k).vm)
    (hrun : v.state = .running → k = c)
    (hidle : k = hvIdleVcpuIdx P → v.state = .idle ∨ c = hvIdleVcpuIdx P ∧ v.state = .running)
    (hunused : ∀ i : VmIdx P, k = i.castSucc → b.guests i = none → v.state = .idle) :
    Handling b c (m.setVcpu k v) := by
  have hk := Keeps.setVcpu m hid hvm
  refine ⟨h.current, h.index, h.roster.keeps hk, ?_, ?_, ?_, ?_⟩
  · intro k' hk'
    rw [Core.vcpu_setVcpu]
    split
    · rename_i he
      exact fun hs => hk' (he.trans (hrun hs))
    · exact h.others k' hk'
  · rw [Core.vcpu_setVcpu]
    split
    · rename_i he
      exact hidle he.symm
    · exact h.idle
  · intro i hi
    refine ⟨?_, (h.unused i hi).2⟩
    rw [Core.vcpu_setVcpu]
    split
    · rename_i he
      exact hunused i he.symm hi
    · exact (h.unused i hi).1
  · refine ⟨h.controls.twi, ?_, ?_, h.controls.other⟩
    · rw [hk.vm]
      exact h.controls.vm
    · intro vm hv
      rw [hk.vm] at hv
      exact h.controls.vttbr vm hv

/-- A guest that a handler works for may be put in any state. -/
theorem Handling.setCurrent (h : Handling b c m) (hc : c ≠ hvIdleVcpuIdx P) {v : HvVcpu P}
    (hid : v.id = (m.vcpu c).id) (hvm : v.vm = (m.vcpu c).vm) : Handling b c (m.setVcpu c v) :=
  h.setVcpu hid hvm (fun _ => rfl) (fun he => absurd he hc)
    (fun i he hi => absurd he (h.unused i hi).2)

theorem Handling.syncVirq (h : Handling b c m) (k : VcpuIdx P) : Handling b c (m.syncVirq k) :=
  ⟨h.current, h.index, ⟨h.roster.guest_id, h.roster.guest_vm, h.roster.idle_id, h.roster.idle_vm⟩,
    h.others, h.idle, h.unused, h.controls.syncVirq k⟩

theorem Handling.setFrame (h : Handling b c m) (frame : HypExceptState) :
    Handling b c (m.setFrame frame) :=
  ⟨h.current, h.index, ⟨h.roster.guest_id, h.roster.guest_vm, h.roster.idle_id, h.roster.idle_vm⟩,
    h.others, h.idle, h.unused,
    ⟨h.controls.twi, h.controls.vm, h.controls.vttbr, h.controls.other⟩⟩

end Handling

end PiPervisor.Hv
