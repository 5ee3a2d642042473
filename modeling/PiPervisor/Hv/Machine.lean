import PiPervisor.Hv.Vcpu
import PiPervisor.Stage2.Table

/-! # The state of the machine in Hyp mode

Everything the exception handlers read or write: the scheduler, the static data
of the drivers, the control registers of the CPU, the trap frame on the Hyp
stack and the devices. The frame, the banked registers and VBAR are the context
of the vCPU that trapped. Barriers and TLB maintenance have no state here.
-/
namespace PiPervisor.Hv
open Stage2

abbrev VmIdx (P : Platform) := Fin P.hvMaxVms
abbrev VcpuIdx (P : Platform) := Fin (P.hvMaxVms + 1)

/-- The vCPU array is never empty: entry 0 is the first guest's, or the idle vCPU's. -/
instance (priority := 2000) neZeroVcpus (P : Platform) : NeZero (P.hvMaxVms + 1) :=
  ⟨P.hvMaxVms.succ_ne_zero⟩

/-- `HV_IDLE_VCPU_IDX`, after the guest vCPUs. -/
def hvIdleVcpuIdx (P : Platform) : VcpuIdx P := Fin.last P.hvMaxVms

def hvIdleVcpuId : BitVec 32 := 0xffffffff

structure HvScheduler (P : Platform) where
  vm : VmIdx P → HvVm
  vcpus : VcpuIdx P → HvVcpu P
  curIdx : VcpuIdx P
  curVcpu : Option (VcpuIdx P)

/-- The registers that `HvGuestSysRegs` declares besides VBAR; a guest writes them without a trap. -/
structure SystemRegs where
  sctlr : BitVec 32
  ttbr0 : BitVec 64
  ttbr1 : BitVec 64
  ttbcr : BitVec 32
  dacr : BitVec 32
  deriving DecidableEq

/-- The system registers that Hyp code programs, the banked registers of the lower modes, and the
system registers that only guests touch. -/
structure Cpu where
  hcr : BitVec 32
  vbar : BitVec 32
  vtcr : BitVec 32
  vttbr : BitVec 64
  banked : HypBankedRegs
  system : SystemRegs

/-- The ARM timer block, with the words its driver writes and reads. -/
structure ArmTimer where
  load : BitVec 32
  ctrl : BitVec 32
  predivider : BitVec 32
  reload : BitVec 32
  maskIrq : BitVec 32

/-- The basic interrupts of the interrupt controller: the enabled ones and the pending ones. -/
structure IrqController where
  enabledBasic : BitVec 32
  basePending : BitVec 32

/-- The Hyp physical timer and the static period of its driver. -/
structure GenTimer where
  periodTicks : BitVec 32
  cnthpTval : BitVec 32
  cnthpCtl : BitVec 32
  core0IrqSource : BitVec 32

inductive PrintkArg where
  | word (value : BitVec 32)
  | text (value : String)
  deriving DecidableEq

/-- What is sent to the UART: a byte, or the text of a trace call. -/
inductive UartOut where
  | byte (value : BitVec 8)
  | trace (function format : String) (args : List PrintkArg)
  deriving DecidableEq

structure Uart where
  rx : List (BitVec 8)
  tx : List UartOut

structure HvVirtualUart where
  auxEnables : BitVec 32
  ier : BitVec 32
  iir : BitVec 32
  lcr : BitVec 32
  mcr : BitVec 32
  msr : BitVec 32
  scratch : BitVec 32
  cntl : BitVec 32
  stat : BitVec 32
  baud : BitVec 32
  deriving DecidableEq

/-- What a context switch moves, and the tables it selects. -/
structure Core (P : Platform) where
  scheduler : HvScheduler P
  stage2TablePools : TablePools
  cpu : Cpu
  frame : HypExceptState

structure Hyp (P : Platform) extends Core P where
  vuarts : ℕ → HvVirtualUart
  counter : BitVec 32
  hypExceptVerbose : Bool
  hvSchedulerVerbose : Bool
  armTimer : ArmTimer
  irq : IrqController
  genTimer : GenTimer
  uart : Uart
  /-- The values that the next reads of `TIM_SYS_CLO` return. -/
  sysClo : ℕ → BitVec 32
  /-- The vCPUs that `hv_scheduler_switch_to` has been called for, in order; no code reads this. -/
  switches : List (VcpuIdx P)

/-- Ways in which a handler does not come back. -/
inductive HypFault where
  | assertFailed (msg : String)
  | divisionByZero
  | endlessLoop
  deriving DecidableEq

/-- `HYP_ACTION_RETURN` and `HYP_ACTION_HALT`. -/
inductive HypExceptAction where
  | actionReturn
  | actionHalt
  deriving DecidableEq

abbrev HypResult (P : Platform) := Except HypFault (HypExceptAction × Hyp P)

variable {P : Platform}

def hypAssert (condition : Bool) (msg : String) : Except HypFault Unit :=
  if condition then .ok () else .error (.assertFailed msg)

def Core.vcpu (m : Core P) (i : VcpuIdx P) : HvVcpu P := m.scheduler.vcpus i

def Core.setVcpu (m : Core P) (i : VcpuIdx P) (vcpu : HvVcpu P) : Core P :=
  { m with scheduler := { m.scheduler with vcpus := Function.update m.scheduler.vcpus i vcpu } }

def Hyp.setVcpu (h : Hyp P) (i : VcpuIdx P) (vcpu : HvVcpu P) : Hyp P :=
  { h with toCore := h.toCore.setVcpu i vcpu }

def trace (h : Hyp P) (function format : String) (args : List PrintkArg) : Hyp P :=
  { h with uart := { h.uart with tx := h.uart.tx ++ [.trace function format args] } }

section Registers

def hcrVm : BitVec 32 := 1 <<< 0
def hcrSwio : BitVec 32 := 1 <<< 1
def hcrImo : BitVec 32 := 1 <<< 4
def hcrVi : BitVec 32 := 1 <<< 7
def hcrTwi : BitVec 32 := 1 <<< 13

def vttbrVmidShift : ℕ := 48
def vttbrVmidMask : BitVec 64 := 0xff
def vttbrBaddrMask : BitVec 64 := 0x000000fffffff000

def setHcrBit (h : Hyp P) (bit : BitVec 32) : Hyp P :=
  { h with cpu := { h.cpu with hcr := h.cpu.hcr ||| bit } }

def clearHcrBit (h : Hyp P) (bit : BitVec 32) : Hyp P :=
  { h with cpu := { h.cpu with hcr := h.cpu.hcr &&& ~~~bit } }

def writeVbar (h : Hyp P) (value : BitVec 32) : Hyp P :=
  { h with cpu := { h.cpu with vbar := value } }

def writeVtcr (h : Hyp P) (value : BitVec 32) : Hyp P :=
  { h with cpu := { h.cpu with vtcr := value } }

def writeVttbr (h : Hyp P) (value : BitVec 64) : Hyp P :=
  { h with cpu := { h.cpu with vttbr := value } }

def hypLoadBankedRegs (h : Hyp P) (bankedRegs : HypBankedRegs) : Hyp P :=
  { h with cpu := { h.cpu with banked := bankedRegs } }

def hypEnableIrqRouting (h : Hyp P) : Hyp P := setHcrBit h hcrImo

/-- Fields of the syndrome register. -/
def hsrEc (hsr : BitVec 32) : BitVec 32 := (hsr >>> 26) &&& 0x3f
def hsrIl (hsr : BitVec 32) : BitVec 32 := (hsr >>> 25) &&& 0x1
def hsrIss (hsr : BitVec 32) : BitVec 32 := (hsr >>> 0) &&& 0x01ffffff
def hsrIssImm16 (hsr : BitVec 32) : BitVec 32 := hsrIss hsr &&& 0xffff

/-- Size of the instruction that trapped. -/
def instrLen (hsr : BitVec 32) : BitVec 32 := if hsrIl hsr ≠ 0 then 4 else 2

end Registers

section Timers

def timArmTimerClockRate : BitVec 64 := 250000000
def timLoadMax : BitVec 64 := 0x7fffff
def timArmTimerPrescale : BitVec 64 := 256
def timArmTimerMaxDeltaUs : BitVec 64 :=
  (timLoadMax * timArmTimerPrescale) / (timArmTimerClockRate / 1000000)

/-- Interrupt, enable, 23-bit counter and prescaler bits of the one-shot programming. -/
def timCtrlOneShot : BitVec 32 := 1 <<< 5 ||| 1 <<< 7 ||| 1 <<< 1 ||| 2 <<< 2

def irqArmTimerInt : ℕ := 0

def timDisableIrq (h : Hyp P) : Hyp P :=
  { h with irq := { h.irq with enabledBasic := h.irq.enabledBasic &&& ~~~(1#32 <<< irqArmTimerInt) } }

def timEnableIrq (h : Hyp P) : Hyp P :=
  { h with irq := { h.irq with enabledBasic := h.irq.enabledBasic ||| 1#32 <<< irqArmTimerInt } }

def timClearPending (h : Hyp P) : Hyp P := { h with armTimer := { h.armTimer with maskIrq := 0 } }

def timPending (h : Hyp P) : Bool := h.armTimer.maskIrq &&& 1 != 0

def irqCheckInterrupt (h : Hyp P) (source : ℕ) : Bool := (h.irq.basePending >>> source) &&& 1 != 0

def timCheckIrq (h : Hyp P) : Bool := timPending h && irqCheckInterrupt h irqArmTimerInt

/-- Load value for an interval, between 1 and the maximum of the counter. -/
def timerTicks (deltaUs : BitVec 32) : BitVec 64 :=
  let ticks := (deltaUs.setWidth 64 * (timArmTimerClockRate / 1000000) +
    timArmTimerPrescale - 1) >>> 8
  if ticks = 0 then 1 else if ticks > timLoadMax then timLoadMax else ticks

def timArmUsec (h : Hyp P) (deltaUs : BitVec 32) : Hyp P :=
  let h := timClearPending (timDisableIrq h)
  timEnableIrq
    { h with armTimer := { h.armTimer with
        predivider := 0, reload := 0, load := (timerTicks deltaUs).setWidth 32,
        ctrl := timCtrlOneShot } }

/-- A read of the tick counter takes the next value that the clock shows. -/
def timSysGetTicks (h : Hyp P) : BitVec 32 × Hyp P :=
  (h.sysClo 0, { h with sysClo := fun n => h.sysClo (n + 1) })

def genTimCnthpirqBit : BitVec 32 := 1 <<< 2
def genTimCtlEnable : BitVec 32 := 1 <<< 0
def genTimCtlImask : BitVec 32 := 1 <<< 1
def genTimCtlIstatus : BitVec 32 := 1 <<< 2

def genTimIstatus (h : Hyp P) : Bool := h.genTimer.cnthpCtl &&& genTimCtlIstatus != 0

def genTimIrqPending (h : Hyp P) : Bool :=
  if !genTimIstatus h then false else h.genTimer.core0IrqSource &&& genTimCnthpirqBit != 0

def genTimAck (h : Hyp P) : Hyp P :=
  { h with genTimer := { h.genTimer with
      cnthpCtl := h.genTimer.cnthpCtl &&& genTimCtlEnable ||| genTimCtlImask } }

def genTimRearm (h : Hyp P) : Except HypFault (Hyp P) := do
  hypAssert (h.genTimer.periodTicks != 0) "generic timer not initialized"
  pure { h with genTimer := { h.genTimer with
    cnthpTval := h.genTimer.periodTicks, cnthpCtl := genTimCtlEnable } }

end Timers

section UartDriver

/-- The wait for the transmitter to take the byte has no state here. -/
def uartPut8 (h : Hyp P) (c : BitVec 8) : Hyp P :=
  { h with uart := { h.uart with tx := h.uart.tx ++ [.byte c] } }

def uartHasData (h : Hyp P) : Bool := !h.uart.rx.isEmpty

/-- The next received byte, or -1. -/
def uartGet8Async (h : Hyp P) : ℤ × Hyp P :=
  match h.uart.rx with
  | [] => (-1, h)
  | c :: rx => (c.toNat, { h with uart := { h.uart with rx := rx } })

end UartDriver

end PiPervisor.Hv
