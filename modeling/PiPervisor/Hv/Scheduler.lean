import PiPervisor.Hv.Machine
import PiPervisor.Hv.Virq

/-! # Scheduler

Context switches between the guest vCPUs and the idle vCPU, with the registers
that follow the current vCPU: the trap controls, stage-2 translation and the
virtual interrupt line. The trap frame on the Hyp stack is switched in place.
-/
namespace PiPervisor.Hv
open Stage2

variable {P : Platform}

section Mmu

def hvMmuVttbrForVm (vm : HvVm) : BitVec 64 :=
  let vmid := (vm.vmid.setWidth 64 &&& vttbrVmidMask) <<< vttbrVmidShift
  let baddr := vm.stage2.rootPa &&& vttbrBaddrMask
  vmid ||| baddr

def hvMmuDeactivateStage2 (h : Hyp P) : Hyp P := clearHcrBit h hcrVm

def hvMmuActivateVcpu (h : Hyp P) (vcpu : VcpuIdx P) : Hyp P :=
  match (h.vcpu vcpu).vm with
  | none => hvMmuDeactivateStage2 h
  | some vm =>
    let h := writeVtcr h hvStage2VtcrDefault
    let h := writeVttbr h (hvMmuVttbrForVm (h.scheduler.vm vm))
    setHcrBit h hcrVm

end Mmu

/-- Virtual interrupt line of the vCPU, or none for a null vCPU. -/
def hvVirqSync (h : Hyp P) (vcpu : Option (VcpuIdx P)) : Hyp P :=
  match vcpu with
  | none => clearHcrBit h hcrVi
  | some i => if (h.vcpu i).virqPending = 0 then clearHcrBit h hcrVi else setHcrBit h hcrVi

section Context

def hvVcpuSave (h : Hyp P) (i : VcpuIdx P) : Hyp P :=
  let vcpu := h.vcpu i
  h.setVcpu i { vcpu with context :=
    { hypState := h.frame, bankedRegs := h.cpu.banked, vbar := h.cpu.vbar,
      sysRegs := { vcpu.context.sysRegs with vbar := h.cpu.vbar } } }

def hvVcpuLoad (h : Hyp P) (i : VcpuIdx P) : Hyp P :=
  let context := (h.vcpu i).context
  let h := hypLoadBankedRegs h context.bankedRegs
  let h := h.setVcpu i { h.vcpu i with context := { context with vbar := context.sysRegs.vbar } }
  let h := writeVbar h context.sysRegs.vbar
  { h with frame := context.hypState }

/-- Enter the first vCPU: its registers are loaded and control leaves Hyp mode. -/
def hvVcpuEnterInitial (h : Hyp P) (i : VcpuIdx P) : Hyp P :=
  let h := hvMmuActivateVcpu h i
  let h := hypLoadBankedRegs h (h.vcpu i).context.bankedRegs
  { h with frame := (h.vcpu i).context.hypState }

end Context

def hvSchedulerGetCurrent (h : Hyp P) : Option (VcpuIdx P) := h.scheduler.curVcpu

def hvSchedulerIsIdleIdx (i : VcpuIdx P) : Bool := i == hvIdleVcpuIdx P

def hvSchedulerIsIdleVcpu (h : Hyp P) (vcpu : Option (VcpuIdx P)) : Bool :=
  match vcpu with
  | none => false
  | some i => (h.vcpu i).id == hvIdleVcpuId

def hvSchedulerSyncTraps (h : Hyp P) (nextIdx : VcpuIdx P) : Hyp P :=
  if hvSchedulerIsIdleIdx nextIdx then clearHcrBit h hcrTwi else setHcrBit h hcrTwi

def hvSchedulerAdvanceTrappedWfi (h : Hyp P) : Hyp P :=
  { h with frame := { h.frame with elrHyp := h.frame.elrHyp + instrLen h.frame.hsr } }

/-- The indices after `start` in round-robin order, `start` itself last. -/
def roundRobin (start : VcpuIdx P) : List (VcpuIdx P) :=
  (List.range (P.hvMaxVms + 1)).map fun offset =>
    ⟨(start.val + (offset + 1)) % (P.hvMaxVms + 1), Nat.mod_lt _ (Nat.succ_pos _)⟩

/-- The next runnable guest vCPU, possibly the current one. -/
def hvSchedulerPickNextIdx (h : Hyp P) : Option (VcpuIdx P) :=
  (roundRobin h.scheduler.curIdx).find? fun idx =>
    !hvSchedulerIsIdleIdx idx && (h.vcpu idx).state == .runnable

def setState (h : Hyp P) (i : VcpuIdx P) (state : HvVcpuState) : Hyp P :=
  h.setVcpu i { h.vcpu i with state := state }

/-- A running vCPU gives up the CPU. -/
def stopRunning (h : Hyp P) (i : VcpuIdx P) : Hyp P :=
  if (h.vcpu i).state = .running then
    setState h i (if hvSchedulerIsIdleVcpu h (some i) then .idle else .runnable)
  else h

/-- The vCPU that takes over the CPU. -/
def startRunning (h : Hyp P) (i : VcpuIdx P) : Hyp P :=
  let h := setState h i .running
  { h with scheduler := { h.scheduler with curIdx := i, curVcpu := some i } }

def hvSchedulerSwitchTo (h : Hyp P) (nextIdx : VcpuIdx P) : HypExceptAction × Hyp P :=
  -- the record of the call
  let h := { h with switches := h.switches ++ [nextIdx] }
  let prevId := match h.scheduler.curVcpu with
    | none => 0xffffffff
    | some prev => (h.vcpu prev).id
  let h := match h.scheduler.curVcpu with
    | none => h
    | some prev => stopRunning (hvVcpuSave h prev) prev
  let h :=
    if h.hvSchedulerVerbose then
      trace h "hv_scheduler_switch_to" "sched switch prev=%d next=%d elr=%p\n"
        [.word prevId, .word (h.vcpu nextIdx).id, .word (h.vcpu nextIdx).context.hypState.elrHyp]
    else h
  let h := startRunning h nextIdx
  let h := hvSchedulerSyncTraps h nextIdx
  let h := hvMmuActivateVcpu h nextIdx
  let h := hvVcpuLoad h nextIdx
  (.actionReturn, hvVirqSync h (some nextIdx))

def hvSchedulerEnterIdle (h : Hyp P) : HypExceptAction × Hyp P :=
  if h.scheduler.curVcpu = some (hvIdleVcpuIdx P) then
    let h := setState h (hvIdleVcpuIdx P) .running
    let h := { h with scheduler := { h.scheduler with curIdx := hvIdleVcpuIdx P } }
    let h := hvSchedulerSyncTraps h (hvIdleVcpuIdx P)
    let h := hvMmuActivateVcpu h (hvIdleVcpuIdx P)
    (.actionReturn, hvVirqSync h (some (hvIdleVcpuIdx P)))
  else hvSchedulerSwitchTo h (hvIdleVcpuIdx P)

def hvSchedulerYield (h : Hyp P) : HypExceptAction × Hyp P :=
  match h.scheduler.curVcpu with
  | none => (.actionReturn, h)
  | some cur =>
    let h := setState h cur .runnable
    match hvSchedulerPickNextIdx h with
    | none => (.actionReturn, setState h cur .running)
    | some next =>
      if next = cur then (.actionReturn, setState h cur .running) else hvSchedulerSwitchTo h next

def hvSchedulerAdvance (h : Hyp P) : HypExceptAction × Hyp P :=
  match h.scheduler.curVcpu with
  | none => hvSchedulerEnterIdle h
  | some cur =>
    let h := stopRunning h cur
    match hvSchedulerPickNextIdx h with
    | none => hvSchedulerEnterIdle h
    | some next => hvSchedulerSwitchTo h next

def hvSchedulerHandleWfi (h : Hyp P) : HypExceptAction × Hyp P :=
  match h.scheduler.curVcpu with
  | none => hvSchedulerEnterIdle h
  | some cur =>
    if hvSchedulerIsIdleVcpu h (some cur) then hvSchedulerEnterIdle h
    else
      let h := hvSchedulerAdvanceTrappedWfi h
      if (h.vcpu cur).virqPending ≠ 0 then (.actionReturn, hvVirqSync h (some cur))
      else hvSchedulerAdvance (h.setVcpu cur (hvVcpuBlock (h.vcpu cur)))

section PhysicalTimer

/-- The timers that can still interrupt a guest. -/
def hasLiveTimer (vcpu : HvVcpu P) : Bool :=
  !(vcpu.state == .idle || vcpu.state == .exited || !vcpu.timer.enabled)

/-- The scan for the earliest deadline over the guest vCPUs. -/
def earliestDeadline (h : Hyp P) : Option (BitVec 64) :=
  (List.finRange P.hvMaxVms).foldl (fun earliest i =>
    let vcpu := h.vcpu i.castSucc
    if !hasLiveTimer vcpu then earliest
    else
      match earliest with
      | none => some vcpu.timer.deadline
      | some e => if vcpu.timer.deadline < e then some vcpu.timer.deadline else some e) none

def hvVtimerRearmPhysical (h : Hyp P) : Hyp P :=
  match earliestDeadline h with
  | none => timDisableIrq h
  | some earliest =>
    let (ticks, h) := timSysGetTicks h
    let now := ticks.setWidth 64
    let delta := if earliest > now then earliest - now else 1
    let delta := if delta > timArmTimerMaxDeltaUs then timArmTimerMaxDeltaUs else delta
    timArmUsec h (delta.setWidth 32)

end PhysicalTimer

end PiPervisor.Hv
