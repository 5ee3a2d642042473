import PiPervisor.Hv.Exceptions
import PiPervisor.Library.Transition

/-! # Boot and runs

The scheduler is initialised with one VM for each guest slot, some of the slots
get a vCPU to run, and the first of them is entered. From then on the machine
alternates between a vCPU, which leaves any values in the registers when it
traps, and the handler of the trap.
-/
namespace PiPervisor.Hv
open Stage2 Library.Transition

/-- SVC mode with asynchronous aborts, IRQs and FIQs masked. -/
def hypLowerSvcCpsr : BitVec 32 := 0x13 ||| 1 <<< 8 ||| 1 <<< 7 ||| 1 <<< 6

variable {P : Platform}

section SchedulerInit

def guestRamRegion (slot : BitVec 32) : HvVmRegion where
  ipaBase := BitVec.ofNat 64 guestBase
  size := BitVec.ofNat 64 guestSlotSize - hvStage2PageSize
  paBase := (guestSlotBase slot).setWidth 64
  attrs := hvStage2PageNormalNcRw
  type := .ram
  device := .none

def guestGuardRegion : HvVmRegion where
  ipaBase := BitVec.ofNat 64 guestBase + BitVec.ofNat 64 guestSlotSize - hvStage2PageSize
  size := hvStage2PageSize
  paBase := 0
  attrs := 0
  type := .ramGuard
  device := .none

def guestUartRegion : HvVmRegion where
  ipaBase := hvGuestUartBase.setWidth 64
  size := hvGuestUartSize
  paBase := 0
  attrs := 0
  type := .mmio
  device := .vuart

def resetVcpu (i : VcpuIdx P) (vcpu : HvVcpu P) : HvVcpu P :=
  { vcpu with id := BitVec.ofNat 32 i, vm := none, state := .idle, virqPending := 0, virqActive := 0 }

def Hyp.setVm (h : Hyp P) (i : VmIdx P) (vm : HvVm) (pools : TablePools) : Hyp P :=
  { h with
    scheduler := { h.scheduler with vm := Function.update h.scheduler.vm i vm }
    stage2TablePools := pools }

/-- The VM of a slot: its RAM, the guard page behind it and the UART window, then its tables. -/
def buildGuestVm (vm : HvVm) (pools : TablePools) (i : VmIdx P) :
    Except HypFault (HvVm × TablePools) := do
  let (res, vm, pools) := hvVmInit P vm pools i (BitVec.ofNat 32 i)
  hypAssert (res == hvVmOk) "failed to initialize guest VM"
  let (res, vm) := hvVmAddRegion vm (guestRamRegion (BitVec.ofNat 32 i))
  hypAssert (res == hvVmOk) "failed to add guest RAM region"
  let (res, vm) := hvVmAddRegion vm guestGuardRegion
  hypAssert (res == hvVmOk) "failed to add guest guard region"
  let (res, vm) := hvVmAddRegion vm guestUartRegion
  hypAssert (res == hvVmOk) "failed to add guest UART MMIO region"
  let (res, vm, pools) := hvVmBuildStage2 vm pools
  hypAssert (res == hvVmOk) "failed to build guest stage-2 tables"
  pure (vm, pools)

def traceGuestVm (h : Hyp P) (i : VmIdx P) (vm : HvVm) : Hyp P :=
  if h.hvSchedulerVerbose then
    trace h "hv_scheduler_init" "vm map id=%d vmid=%d ipa=%p pa=%p root=%p\n"
      [.word (BitVec.ofNat 32 vm.id), .word vm.vmid, .word (BitVec.ofNat 32 guestBase),
        .word (guestSlotBase (BitVec.ofNat 32 i)), .word (vm.stage2.rootPa.setWidth 32)]
  else h

/-- The turn of a slot in the loop over the slots. -/
def initGuestVm (h : Hyp P) (i : VmIdx P) : Except HypFault (Hyp P) := do
  let (vm, pools) ← buildGuestVm (h.scheduler.vm i) h.stage2TablePools i
  let h := traceGuestVm (h.setVm i vm pools) i vm
  pure (h.setVcpu i.castSucc { h.vcpu i.castSucc with vm := some i })

def hvSchedulerInit (h : Hyp P) : Except HypFault (Hyp P) := do
  let h : Hyp P := { h with scheduler := { h.scheduler with
    curIdx := 0, vcpus := fun i => resetVcpu i (h.vcpu i) } }
  let h ← (List.finRange P.hvMaxVms).foldlM initGuestVm h
  let idle := hvVcpuInit (h.vcpu (hvIdleVcpuIdx P)) hvIdleVcpuId P.hvIdleVcpuEntry P.idleStackTop
    hypLowerSvcCpsr
  let h := setState (h.setVcpu (hvIdleVcpuIdx P) idle) (hvIdleVcpuIdx P) .idle
  let h := setState h 0 .runnable
  let h := { h with scheduler := { h.scheduler with curVcpu := some 0 } }
  pure (setHcrBit h hcrTwi)

end SchedulerInit

section Boot

def firstVm (P : Platform) : VmIdx P := ⟨0, P.maxVms_pos⟩

/-- Arguments for the vCPU of a slot; `periodic` are those of its timer, if it is started. -/
structure GuestBoot where
  entryPoint : BitVec 32
  stackTop : BitVec 32
  cpsr : BitVec 32
  periodic : Option (BitVec 64 × BitVec 64)

/-- What a boot may choose: the memory it starts from and the guests it runs. -/
structure Boot (P : Platform) where
  reset : Hyp P
  hcr_reset : reset.cpu.hcr = hcrSwio
  routeIrqs : Bool
  guests : VmIdx P → Option GuestBoot
  first : (guests (firstVm P)).isSome
  rearm : Bool

/-- The record of a slot's vCPU once it is initialised, and its timer started. -/
def startedVcpu (i : VmIdx P) (g : GuestBoot) (vcpu : HvVcpu P) : HvVcpu P :=
  let vcpu := hvVcpuInit vcpu (BitVec.ofNat 32 i) g.entryPoint g.stackTop g.cpsr
  match g.periodic with
  | none => vcpu
  | some (now, period) => hvVcpuTimerStartPeriodic vcpu now period

def initGuestVcpu (guests : VmIdx P → Option GuestBoot) (h : Hyp P) (i : VmIdx P) : Hyp P :=
  match guests i with
  | none => h
  | some g => h.setVcpu i.castSucc (startedVcpu i g (h.vcpu i.castSucc))

/-- The main program, up to the entry of the first guest. -/
def Boot.main (b : Boot P) : Except HypFault (Hyp P) := do
  let h ← hvSchedulerInit b.reset
  let h := if b.routeIrqs then hypEnableIrqRouting h else h
  let h := (List.finRange P.hvMaxVms).foldl (initGuestVcpu b.guests) h
  let h := { h with scheduler := { h.scheduler with curIdx := 0, curVcpu := some 0 } }
  let h := setState h 0 .running
  let h := if b.rearm then hvVtimerRearmPhysical h else h
  pure (hvVcpuEnterInitial h 0)

end Boot

section Runs

/-- What the vCPU and the devices leave behind when an exception is taken. -/
structure Trap where
  frame : HypExceptState
  banked : HypBankedRegs
  vbar : BitVec 32
  system : SystemRegs
  sysClo : ℕ → BitVec 32
  maskIrq : BitVec 32
  basePending : BitVec 32
  cnthpCtl : BitVec 32
  core0IrqSource : BitVec 32
  received : List (BitVec 8)

/-- Synchronous exceptions and IRQs; the idle vCPU executes nothing but its WFI loop. -/
def canTrap (h : Hyp P) (t : Trap) : Prop :=
  t.frame.exceptionType = hypExceptionIrq ∨
    t.frame.exceptionType = hypExceptionLowerSync ∧
      (h.scheduler.curVcpu = some (hvIdleVcpuIdx P) →
        hsrEc t.frame.hsr = hsrEcWfiWfe ∧ hsrIss t.frame.hsr &&& hsrWfiWfeIsWfe = 0)

instance (h : Hyp P) (t : Trap) : Decidable (canTrap h t) := by
  unfold canTrap
  infer_instance

def takeTrap (h : Hyp P) (t : Trap) : Hyp P :=
  { h with
    frame := t.frame
    cpu := { h.cpu with vbar := t.vbar, banked := t.banked, system := t.system }
    sysClo := t.sysClo
    armTimer := { h.armTimer with maskIrq := t.maskIrq }
    irq := { h.irq with basePending := t.basePending }
    genTimer := { h.genTimer with cnthpCtl := t.cnthpCtl, core0IrqSource := t.core0IrqSource }
    uart := { h.uart with rx := h.uart.rx ++ t.received } }

/-- A state between two traps, with the last trap of each vCPU. -/
structure RunState (P : Platform) where
  hyp : Hyp P
  lastTrap : VcpuIdx P → Option Trap

/-- A trap whose handler returns to a vCPU. -/
def RunState.step (r : RunState P) (t : Trap) : Option (RunState P) :=
  match r.hyp.scheduler.curVcpu with
  | none => none
  | some cur =>
    if canTrap r.hyp t then
      match hypHandleException (takeTrap r.hyp t) with
      | .ok (.actionReturn, h) =>
        some { hyp := h, lastTrap := Function.update r.lastTrap cur (some t) }
      | _ => none
    else none

/-- The state after a boot and a sequence of traps that are all returned from. -/
def Boot.run (b : Boot P) (ts : List Trap) : Option (RunState P) :=
  match b.main with
  | .ok h => Library.Transition.run RunState.step { hyp := h, lastTrap := fun _ => none } ts
  | .error _ => none

end Runs

end PiPervisor.Hv
