import PiPervisor.Library.BitField
import PiPervisor.Library.ContextSwitch
import PiPervisor.Hv.Boot

/-! # What a context switch does

The switch is a switch of the shared registers: it changes no vCPU's context,
only where the context is. The control registers are rewritten from the vCPU
that is switched to.
-/
namespace PiPervisor.Hv
open Stage2 Library.BitField Library.ContextSwitch

variable {P : Platform}

/-- The registers that a vCPU owns while it runs. -/
structure CpuContext where
  frame : HypExceptState
  banked : HypBankedRegs
  vbar : BitVec 32
  deriving DecidableEq

def HvVcpuContext.toCpu (c : HvVcpuContext) : CpuContext := ⟨c.hypState, c.bankedRegs, c.sysRegs.vbar⟩

namespace Core

def live (m : Core P) : CpuContext := ⟨m.frame, m.cpu.banked, m.cpu.vbar⟩

def registers (m : Core P) : Registers (VcpuIdx P) CpuContext where
  current := m.scheduler.curVcpu
  live := m.live
  saved k := (m.vcpu k).context.toCpu

def setHcr (m : Core P) (hcr : BitVec 32) : Core P := { m with cpu := { m.cpu with hcr := hcr } }

def setFrame (m : Core P) (frame : HypExceptState) : Core P := { m with frame := frame }

section Projections
variable (m : Core P) (i k : VcpuIdx P) (v : HvVcpu P) (hcr : BitVec 32) (frame : HypExceptState)

theorem vcpu_setVcpu : (m.setVcpu i v).vcpu k = if k = i then v else m.vcpu k :=
  Function.update_apply ..

@[simp] theorem vcpu_setVcpu_self : (m.setVcpu i v).vcpu i = v := Function.update_self ..

@[simp] theorem setVcpu_self : m.setVcpu i (m.vcpu i) = m := by
  rw [setVcpu, vcpu, Function.update_eq_self]

@[simp] theorem setVcpu_curVcpu : (m.setVcpu i v).scheduler.curVcpu = m.scheduler.curVcpu := rfl
@[simp] theorem setVcpu_curIdx : (m.setVcpu i v).scheduler.curIdx = m.scheduler.curIdx := rfl
@[simp] theorem setVcpu_vm : (m.setVcpu i v).scheduler.vm = m.scheduler.vm := rfl
@[simp] theorem setVcpu_pools : (m.setVcpu i v).stage2TablePools = m.stage2TablePools := rfl
@[simp] theorem setVcpu_cpu : (m.setVcpu i v).cpu = m.cpu := rfl
@[simp] theorem setVcpu_frame : (m.setVcpu i v).frame = m.frame := rfl
@[simp] theorem setVcpu_live : (m.setVcpu i v).live = m.live := rfl

@[simp] theorem setHcr_scheduler : (m.setHcr hcr).scheduler = m.scheduler := rfl
@[simp] theorem setHcr_pools : (m.setHcr hcr).stage2TablePools = m.stage2TablePools := rfl
@[simp] theorem setHcr_vcpu : (m.setHcr hcr).vcpu k = m.vcpu k := rfl
@[simp] theorem setHcr_hcr : (m.setHcr hcr).cpu.hcr = hcr := rfl
@[simp] theorem setHcr_vttbr : (m.setHcr hcr).cpu.vttbr = m.cpu.vttbr := rfl
@[simp] theorem setHcr_registers : (m.setHcr hcr).registers = m.registers := rfl

@[simp] theorem setFrame_scheduler : (m.setFrame frame).scheduler = m.scheduler := rfl
@[simp] theorem setFrame_pools : (m.setFrame frame).stage2TablePools = m.stage2TablePools := rfl
@[simp] theorem setFrame_vcpu : (m.setFrame frame).vcpu k = m.vcpu k := rfl
@[simp] theorem setFrame_cpu : (m.setFrame frame).cpu = m.cpu := rfl
@[simp] theorem setFrame_registers :
    (m.setFrame frame).registers = m.registers.write { m.live with frame := frame } := rfl

/-- Changing the record of a vCPU outside its context moves no register. -/
theorem registers_setVcpu {m : Core P} {i : VcpuIdx P} {v : HvVcpu P}
    (h : v.context = (m.vcpu i).context) : (m.setVcpu i v).registers = m.registers := by
  have hs : (fun k => ((m.setVcpu i v).vcpu k).context.toCpu) =
      fun k => (m.vcpu k).context.toCpu := by
    funext k
    rw [vcpu_setVcpu]
    split
    · rename_i hk
      rw [hk, h]
    · rfl
  simp only [registers, hs, setVcpu_curVcpu, setVcpu_live]

end Projections

section Steps

/-- The record of a vCPU that has given up the CPU. -/
def stopped (v : HvVcpu P) : HvVcpu P :=
  if v.state = .running then
    { v with state := if v.id = hvIdleVcpuId then .idle else .runnable }
  else v

@[simp] theorem stopped_id (v : HvVcpu P) : (stopped v).id = v.id := by rw [stopped]; split <;> rfl
@[simp] theorem stopped_vm (v : HvVcpu P) : (stopped v).vm = v.vm := by rw [stopped]; split <;> rfl
@[simp] theorem stopped_context (v : HvVcpu P) : (stopped v).context = v.context := by
  rw [stopped]; split <;> rfl

theorem stopped_state (v : HvVcpu P) : (stopped v).state =
    if v.state = .running then if v.id = hvIdleVcpuId then .idle else .runnable else v.state := by
  rw [stopped]; split <;> rfl

def save (m : Core P) (i : VcpuIdx P) : Core P :=
  m.setVcpu i { m.vcpu i with context :=
    { hypState := m.frame, bankedRegs := m.cpu.banked, vbar := m.cpu.vbar,
      sysRegs := { (m.vcpu i).context.sysRegs with vbar := m.cpu.vbar } } }

def stop (m : Core P) (i : VcpuIdx P) : Core P := m.setVcpu i (stopped (m.vcpu i))

def start (m : Core P) (j : VcpuIdx P) : Core P :=
  let m := m.setVcpu j { m.vcpu j with state := .running }
  { m with scheduler := { m.scheduler with curIdx := j, curVcpu := some j } }

def syncTraps (m : Core P) (j : VcpuIdx P) : Core P :=
  m.setHcr (putMask m.cpu.hcr hcrTwi (j ≠ hvIdleVcpuIdx P))

def activate (m : Core P) (j : VcpuIdx P) : Core P :=
  { m with cpu := { m.cpu with
      hcr := putMask m.cpu.hcr hcrVm (m.vcpu j).vm.isSome
      vtcr := if (m.vcpu j).vm.isSome then hvStage2VtcrDefault else m.cpu.vtcr
      vttbr := match (m.vcpu j).vm with
        | none => m.cpu.vttbr
        | some vm => hvMmuVttbrForVm (m.scheduler.vm vm) } }

def load (m : Core P) (j : VcpuIdx P) : Core P :=
  let context := (m.vcpu j).context
  { m.setVcpu j { m.vcpu j with context := { context with vbar := context.sysRegs.vbar } } with
    cpu := { m.cpu with banked := context.bankedRegs, vbar := context.sysRegs.vbar }
    frame := context.hypState }

def syncVirq (m : Core P) (j : VcpuIdx P) : Core P :=
  m.setHcr (putMask m.cpu.hcr hcrVi ((m.vcpu j).virqPending ≠ 0))

/-- The control registers of the vCPU that runs next. -/
def follow (m : Core P) (j : VcpuIdx P) : Core P := (m.syncTraps j).activate j

def switchTo (m : Core P) (c j : VcpuIdx P) : Core P :=
  (((((m.save c).stop c).start j).follow j).load j).syncVirq j

end Steps

end Core

section Bridge
variable (h : Hyp P) (i j : VcpuIdx P)

@[simp] theorem toCore_setVcpu (v : HvVcpu P) : (h.setVcpu i v).toCore = h.toCore.setVcpu i v := rfl

@[simp] theorem toCore_setState (s : HvVcpuState) :
    (setState h i s).toCore = h.toCore.setVcpu i { h.vcpu i with state := s } := rfl

@[simp] theorem toCore_trace (f s : String) (args : List PrintkArg) :
    (trace h f s args).toCore = h.toCore := rfl

@[simp] theorem toCore_hvVcpuSave : (hvVcpuSave h i).toCore = h.toCore.save i := rfl

@[simp] theorem toCore_hvVcpuLoad : (hvVcpuLoad h i).toCore = h.toCore.load i := rfl

@[simp] theorem toCore_stopRunning : (stopRunning h i).toCore = h.toCore.stop i := by
  rw [stopRunning, Core.stop, Core.stopped]
  split
  · simp only [toCore_setState, hvSchedulerIsIdleVcpu, beq_iff_eq]
  · rw [Core.setVcpu_self]

@[simp] theorem toCore_hvSchedulerSyncTraps :
    (hvSchedulerSyncTraps h j).toCore = h.toCore.syncTraps j := by
  rw [hvSchedulerSyncTraps, Core.syncTraps, putMask, hvSchedulerIsIdleIdx]
  by_cases hj : j = hvIdleVcpuIdx P
  · simp [hj, clearHcrBit, Core.setHcr]
  · simp [hj, setHcrBit, Core.setHcr]

@[simp] theorem toCore_hvMmuActivateVcpu :
    (hvMmuActivateVcpu h j).toCore = h.toCore.activate j := by
  rw [hvMmuActivateVcpu, Core.activate]
  split
  · rename_i hv
    simp [hv, hvMmuDeactivateStage2, clearHcrBit, putMask]
  · rename_i vm hv
    simp [hv, writeVtcr, writeVttbr, setHcrBit, putMask]

@[simp] theorem toCore_hvVirqSync : (hvVirqSync h (some i)).toCore = h.toCore.syncVirq i := by
  rw [hvVirqSync, Core.syncVirq, putMask]
  by_cases hp : (h.vcpu i).virqPending = 0
  · rw [if_pos hp, if_neg (by simpa using hp)]
    rfl
  · rw [if_neg hp, if_pos (by simpa using hp)]
    rfl

@[simp] theorem toCore_startRunning : (startRunning h j).toCore = h.toCore.start j := rfl

/-- The switch between two vCPUs, on the part of the machine it is about. -/
theorem toCore_hvSchedulerSwitchTo {h : Hyp P} {c : VcpuIdx P}
    (hc : h.scheduler.curVcpu = some c) :
    (hvSchedulerSwitchTo h j).2.toCore = h.toCore.switchTo c j := by
  simp only [hvSchedulerSwitchTo, hc, toCore_hvVirqSync, toCore_hvVcpuLoad,
    toCore_hvMmuActivateVcpu, toCore_hvSchedulerSyncTraps, toCore_startRunning,
    apply_ite Hyp.toCore, toCore_trace, ite_self, toCore_stopRunning, toCore_hvVcpuSave,
    Core.switchTo, Core.follow]

end Bridge

section Devices
variable {h h1 h' : Hyp P}

/-- Only the part of the machine that a context switch moves has changed. -/
def SameDevices (h h' : Hyp P) : Prop := h' = { h with toCore := h'.toCore }

theorem SameDevices.trans (hd : SameDevices h h1) (hd' : SameDevices h1 h') : SameDevices h h' :=
  Eq.trans hd' (by rw [hd])

theorem SameDevices.eq (hd : SameDevices h h') : h' = { h with toCore := h'.toCore } := hd

theorem SameDevices.uart (hd : SameDevices h h') : h'.uart = h.uart := by rw [hd.eq]

theorem SameDevices.switches (hd : SameDevices h h') : h'.switches = h.switches := by
  rw [hd.eq]

variable (h) (i : VcpuIdx P)

theorem sameDevices_stopRunning : SameDevices h (stopRunning h i) := by
  rw [stopRunning]
  split <;> rfl

theorem sameDevices_hvSchedulerSyncTraps : SameDevices h (hvSchedulerSyncTraps h i) := by
  rw [hvSchedulerSyncTraps]
  split <;> rfl

theorem sameDevices_hvMmuActivateVcpu : SameDevices h (hvMmuActivateVcpu h i) := by
  rw [hvMmuActivateVcpu]
  split <;> rfl

theorem sameDevices_hvVirqSync (vcpu : Option (VcpuIdx P)) : SameDevices h (hvVirqSync h vcpu) := by
  rcases vcpu with - | c
  · rfl
  · rw [hvVirqSync.eq_def]
    dsimp only
    split <;> rfl

/-- The second half of a switch. -/
theorem sameDevices_takeOver : SameDevices h (hvVirqSync (hvVcpuLoad (hvMmuActivateVcpu
    (hvSchedulerSyncTraps (startRunning h i) i) i) i) (some i)) := by
  have hstart : SameDevices h (startRunning h i) := rfl
  have hload (h : Hyp P) : SameDevices h (hvVcpuLoad h i) := rfl
  exact ((hstart.trans (sameDevices_hvSchedulerSyncTraps _ i)).trans
    (sameDevices_hvMmuActivateVcpu _ i)).trans ((hload _).trans (sameDevices_hvVirqSync _ _))

/-- The idle vCPU goes on if it is the current one. -/
theorem sameDevices_hvSchedulerEnterIdle (hc : h.scheduler.curVcpu = some (hvIdleVcpuIdx P)) :
    SameDevices h (hvSchedulerEnterIdle h).2 := by
  let h0 := setState h (hvIdleVcpuIdx P) .running
  let h1 : Hyp P := { h0 with scheduler := { h0.scheduler with curIdx := hvIdleVcpuIdx P } }
  have hset : SameDevices h h1 := rfl
  have henter : (hvSchedulerEnterIdle h).2 = hvVirqSync (hvMmuActivateVcpu
      (hvSchedulerSyncTraps h1 (hvIdleVcpuIdx P)) (hvIdleVcpuIdx P)) (some (hvIdleVcpuIdx P)) := by
    rw [hvSchedulerEnterIdle, if_pos hc]
  rw [henter]
  exact ((hset.trans (sameDevices_hvSchedulerSyncTraps h1 _)).trans
    (sameDevices_hvMmuActivateVcpu _ _)).trans (sameDevices_hvVirqSync _ _)

/-- A switch is recorded once. -/
theorem switches_hvSchedulerSwitchTo :
    (hvSchedulerSwitchTo h i).2.switches = h.switches ++ [i] := by
  rw [hvSchedulerSwitchTo]
  dsimp only
  rw [(sameDevices_takeOver _ i).switches]
  rcases h.scheduler.curVcpu with - | c <;> dsimp only
  · split <;> rfl
  · split <;> exact (sameDevices_stopRunning _ c).switches

end Devices

/-- What no code in Hyp mode changes after the boot: the VMs, their tables and who is who. -/
structure Keeps (m m' : Core P) : Prop where
  vms : m'.scheduler.vm = m.scheduler.vm
  pools : m'.stage2TablePools = m.stage2TablePools
  id : ∀ k, (m'.vcpu k).id = (m.vcpu k).id
  vm : ∀ k, (m'.vcpu k).vm = (m.vcpu k).vm

theorem Keeps.refl (m : Core P) : Keeps m m := ⟨rfl, rfl, fun _ => rfl, fun _ => rfl⟩

theorem Keeps.symm {m m' : Core P} (h : Keeps m m') : Keeps m' m :=
  ⟨h.vms.symm, h.pools.symm, fun k => (h.id k).symm, fun k => (h.vm k).symm⟩

theorem Keeps.trans {m m' m'' : Core P} (h : Keeps m m') (h' : Keeps m' m'') : Keeps m m'' where
  vms := h'.vms.trans h.vms
  pools := h'.pools.trans h.pools
  id k := (h'.id k).trans (h.id k)
  vm k := (h'.vm k).trans (h.vm k)

theorem Keeps.setVcpu (m : Core P) {i : VcpuIdx P} {v : HvVcpu P} (hid : v.id = (m.vcpu i).id)
    (hvm : v.vm = (m.vcpu i).vm) : Keeps m (m.setVcpu i v) := by
  refine ⟨rfl, rfl, fun k => ?_, fun k => ?_⟩ <;>
  · rw [Core.vcpu_setVcpu]
    split
    · rename_i hk
      subst hk
      assumption
    · rfl

namespace Core
variable {m : Core P} {c j : VcpuIdx P}

theorem keeps_load (m : Core P) (j : VcpuIdx P) : Keeps m (m.load j) := by
  have h := Keeps.setVcpu m (i := j) (v := { m.vcpu j with context :=
    { (m.vcpu j).context with vbar := (m.vcpu j).context.sysRegs.vbar } }) rfl rfl
  exact ⟨rfl, rfl, h.id, h.vm⟩

theorem keeps_switchTo : Keeps m (m.switchTo c j) := by
  have hsave : Keeps m (m.save c) := Keeps.setVcpu m rfl rfl
  have hstop : Keeps (m.save c) ((m.save c).stop c) :=
    Keeps.setVcpu _ (stopped_id _) (stopped_vm _)
  have hstart (m : Core P) : Keeps m (m.start j) := by
    have h := Keeps.setVcpu m (i := j) (v := { m.vcpu j with state := .running }) rfl rfl
    exact ⟨rfl, rfl, h.id, h.vm⟩
  have hfollow (m : Core P) : Keeps m (m.follow j) :=
    ⟨rfl, rfl, fun _ => rfl, fun _ => rfl⟩
  have hsync (m : Core P) : Keeps m (m.syncVirq j) :=
    ⟨rfl, rfl, fun _ => rfl, fun _ => rfl⟩
  exact ((((hsave.trans hstop).trans (hstart _)).trans (hfollow _)).trans (keeps_load _ j)).trans
    (hsync _)

/-- The switch of the machine is the switch of its registers. -/
theorem registers_switchTo (hc : m.scheduler.curVcpu = some c) :
    (m.switchTo c j).registers = m.registers.switchTo j := by
  have hsaved : (m.save c).registers = { m.registers with saved := m.registers.save } := by
    have hs : (fun k => ((m.save c).vcpu k).context.toCpu) = m.registers.save := by
      funext k
      rw [save, vcpu_setVcpu, Registers.save, registers, hc]
      by_cases hk : k = c
      · rw [if_pos hk, hk]
        exact (Function.update_self (f := fun k => (m.vcpu k).context.toCpu) c m.live).symm
      · rw [if_neg hk]
        exact (Function.update_of_ne (f := fun k => (m.vcpu k).context.toCpu) hk m.live).symm
    rw [registers, hs]
    rfl
  have hstop : ((m.save c).stop c).registers = { m.registers with saved := m.registers.save } :=
    (registers_setVcpu (stopped_context _)).trans hsaved
  have hstart (m : Core P) : (m.start j).registers = { m.registers with current := some j } := by
    have h := registers_setVcpu (m := m) (i := j) (v := { m.vcpu j with state := .running }) rfl
    exact congrArg (fun r : Registers _ _ => { r with current := some j }) h
  have hload (m : Core P) : (m.load j).registers = { m.registers with live := m.registers.saved j } := by
    have hs : (fun k => ((m.load j).vcpu k).context.toCpu) = m.registers.saved := by
      funext k
      change (((m.setVcpu j _).vcpu k).context.toCpu) = _
      rw [vcpu_setVcpu]
      split
      · rename_i hk
        subst hk
        rfl
      · rfl
    rw [registers, hs]
    rfl
  change ((((m.save c).stop c).start j).follow j |>.load j).registers = _
  rw [hload]
  change { (((m.save c).stop c).start j).registers with
    live := (((m.save c).stop c).start j).registers.saved j } = _
  rw [hstart, hstop]
  rfl

theorem state_switchTo (k : VcpuIdx P) : ((m.switchTo c j).vcpu k).state =
    if k = j then .running else if k = c then (stopped (m.vcpu c)).state else (m.vcpu k).state := by
  have hload (m : Core P) : ((m.load j).vcpu k).state = (m.vcpu k).state := by
    change ((m.setVcpu j _).vcpu k).state = _
    rw [vcpu_setVcpu]
    split
    · rename_i hk
      rw [hk]
    · rfl
  change (((((m.save c).stop c).start j).follow j |>.load j).vcpu k).state = _
  rw [hload]
  change ((((m.save c).stop c).setVcpu j _).vcpu k).state = _
  rw [vcpu_setVcpu]
  split
  · rfl
  · rw [stop, vcpu_setVcpu]
    split
    · rw [save, vcpu_setVcpu_self, stopped_state, stopped_state]
    · rename_i hk
      rw [save, vcpu_setVcpu, if_neg hk]

end Core

end PiPervisor.Hv
