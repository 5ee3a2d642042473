import PiPervisor.Hv.Hypercall
import PiPervisor.Hv.Mmio

/-! # Exceptions taken to Hyp mode

Every exception arrives with a trap frame and leaves with an action: return to
the vCPU whose registers are in the frame, or halt.
-/
namespace PiPervisor.Hv
open Stage2

def hypExceptionUnknown : BitVec 32 := 0
def hypExceptionUndefInstr : BitVec 32 := 1
def hypExceptionHvcFromHyp : BitVec 32 := 2
def hypExceptionPrefetchAbort : BitVec 32 := 3
def hypExceptionDataAbort : BitVec 32 := 4
def hypExceptionLowerSync : BitVec 32 := 5
def hypExceptionIrq : BitVec 32 := 6
def hypExceptionFiq : BitVec 32 := 7

def hsrEcUnknown : BitVec 32 := 0b000000
def hsrEcWfiWfe : BitVec 32 := 0b000001
def hsrEcCp15McrMrc : BitVec 32 := 0b000011
def hsrEcCp15McrrMrrc : BitVec 32 := 0b000100
def hsrEcCp14McrMrc : BitVec 32 := 0b000101
def hsrEcLdcStc : BitVec 32 := 0b000110
def hsrEcFpAsimd : BitVec 32 := 0b000111
def hsrEcVmrsIdTrap : BitVec 32 := 0b001000
def hsrEcCp14Mrrc : BitVec 32 := 0b001100
def hsrEcIllegalExceptionReturnA32 : BitVec 32 := 0b001110
def hsrEcSvcA32 : BitVec 32 := 0b010001
def hsrEcHvcA32 : BitVec 32 := 0b010010
def hsrEcSmcA32 : BitVec 32 := 0b010011
def hsrEcPrefetchAbortLower : BitVec 32 := 0b100000
def hsrEcPrefetchAbortSame : BitVec 32 := 0b100001
def hsrEcPcAlignmentFault : BitVec 32 := 0b100010
def hsrEcDataAbortLower : BitVec 32 := 0b100100
def hsrEcDataAbortSame : BitVec 32 := 0b100101

def hsrWfiWfeIsWfe : BitVec 32 := 1 <<< 0

def hsrEcName (ec : BitVec 32) : String :=
  if ec = hsrEcUnknown then "unknown"
  else if ec = hsrEcWfiWfe then "wfi/wfe"
  else if ec = hsrEcCp15McrMrc then "cp15 mcr/mrc"
  else if ec = hsrEcCp15McrrMrrc then "cp15 mcrr/mrrc"
  else if ec = hsrEcCp14McrMrc then "cp14 mcr/mrc"
  else if ec = hsrEcLdcStc then "ldc/stc"
  else if ec = hsrEcFpAsimd then "fp/asimd"
  else if ec = hsrEcVmrsIdTrap then "vmrs id trap"
  else if ec = hsrEcCp14Mrrc then "cp14 mrrc"
  else if ec = hsrEcIllegalExceptionReturnA32 then "illegal exception return"
  else if ec = hsrEcSvcA32 then "svc a32"
  else if ec = hsrEcHvcA32 then "hvc a32"
  else if ec = hsrEcSmcA32 then "smc a32"
  else if ec = hsrEcPrefetchAbortLower then "prefetch abort lower"
  else if ec = hsrEcPrefetchAbortSame then "prefetch abort same"
  else if ec = hsrEcPcAlignmentFault then "pc alignment fault"
  else if ec = hsrEcDataAbortLower then "data abort lower"
  else if ec = hsrEcDataAbortSame then "data abort same"
  else "reserved/unknown"

/-- The syndrome classes that an exception type may carry; none past the end of the table. -/
def validHsrEc (exceptType : BitVec 32) : Option (List (BitVec 32)) :=
  if exceptType = hypExceptionUnknown then some [hsrEcUnknown]
  else if exceptType = hypExceptionUndefInstr then some [hsrEcUnknown]
  else if exceptType = hypExceptionHvcFromHyp then some [hsrEcHvcA32]
  else if exceptType = hypExceptionPrefetchAbort then
    some [hsrEcPrefetchAbortLower, hsrEcPrefetchAbortSame, hsrEcPcAlignmentFault]
  else if exceptType = hypExceptionDataAbort then some [hsrEcDataAbortLower, hsrEcDataAbortSame]
  else if exceptType = hypExceptionLowerSync then
    some [hsrEcHvcA32, hsrEcWfiWfe, hsrEcPrefetchAbortLower, hsrEcDataAbortLower,
      hsrEcCp15McrMrc, hsrEcCp15McrrMrrc, hsrEcCp14McrMrc, hsrEcCp14Mrrc, hsrEcFpAsimd]
  else none

/-- Membership of a word in a list of codes is decided by comparing words. -/
instance (priority := 2000) lawfulBEqWord : LawfulBEq (BitVec 32) := inferInstance

def hsrEcValid (hsr exceptType : BitVec 32) : Bool :=
  match validHsrEc exceptType with
  | none => false
  | some classes => (hsrEc hsr) ∈ classes

variable {P : Platform}

section Dump

def hypDumpExceptionState (h : Hyp P) : Hyp P :=
  let f := "hyp_dump_exception_state"
  let s := h.frame
  let h := trace h f "-------- HYP EXCEPTION STATE --------\n" []
  let h := trace h f "EXCEPTION TYPE: %d\n" [.word s.exceptionType]
  let h := trace h f "HSR: %p\n" [.word s.hsr]
  let h := trace h f "HSR EC: %d (%s)\n" [.word (hsrEc s.hsr), .text (hsrEcName (hsrEc s.hsr))]
  let h := trace h f "HSR ISS: %p\n" [.word (hsrIss s.hsr)]
  let h := trace h f "ELR_HYP: %p\n" [.word s.elrHyp]
  let h := trace h f "SPSR_HYP: %b\n" [.word s.spsrHyp]
  let h := trace h f "HDFAR: %p\n" [.word s.hdfar]
  let h := trace h f "HIFAR: %p\n" [.word s.hifar]
  let h := trace h f "HPFAR: %p\n" [.word s.hpfar]
  trace h f "-------------------------------------\n\n" []

/-- The dump that is left out when every exception is dumped anyway. -/
def hypDumpUnexpectedExceptionState (h : Hyp P) : Hyp P :=
  if h.hypExceptVerbose then h else hypDumpExceptionState h

/-- Dump the state, say what happened, and halt. -/
def haltWith (h : Hyp P) (function format : String) (args : List PrintkArg) : HypResult P :=
  .ok (.actionHalt, trace (hypDumpUnexpectedExceptionState h) function format args)

end Dump

section Stage2Faults

def stage2AccessName : HvStage2Access → String
  | .read => "read"
  | .write => "write"
  | .instruction => "instruction"

/-- Page of the faulting address, from HPFAR. -/
def faultPage (hpfar : BitVec 32) : BitVec 64 := (hpfar &&& 0xfffffff0).setWidth 64 <<< 8

def decodeStage2Fault (h : Hyp P) (vcpu : VcpuIdx P) : HvStage2FaultInfo :=
  let iss := hsrIss h.frame.hsr
  let ec := hsrEc h.frame.hsr
  let isInstruction := ec == hsrEcPrefetchAbortLower
  let isWrite := !isInstruction && (iss &&& hsrIssAbortWnr != 0)
  let offsetValid := !isInstruction && (iss &&& hsrIssAbortFnv == 0)
  { vcpuId := (h.vcpu vcpu).id
    vmId := match (h.vcpu vcpu).vm with
      | none => 0xffffffff
      | some vm => BitVec.ofNat 32 (h.scheduler.vm vm).id
    ec := ec
    iss := iss
    status := iss &&& hsrIssFaultStatusMask
    level := (iss &&& hsrIssFaultStatusMask) &&& 0x3
    ipa :=
      if offsetValid then
        faultPage h.frame.hpfar ||| h.frame.hdfar.setWidth 64 &&& (hvStage2PageSize - 1)
      else faultPage h.frame.hpfar
    access := if isInstruction then .instruction else if isWrite then .write else .read
    isWrite := isWrite
    isInstruction := isInstruction
    ipaOffsetValid := offsetValid }

def logStage2Fault (h : Hyp P) (fault : HvStage2FaultInfo) (route : String) : Hyp P :=
  if !h.hypExceptVerbose then h
  else
    trace h "log_stage2_fault"
      "stage2 fault: route=%s vcpu=%d vm=%d ipa=%p access=%s level=%d status=%p iss=%p\n"
      [.text route, .word fault.vcpuId, .word fault.vmId, .word (fault.ipa.setWidth 32),
        .text (stage2AccessName fault.access), .word fault.level, .word fault.status,
        .word fault.iss]

def advanceTrappedGuestInstr (h : Hyp P) : Hyp P :=
  { h with frame := { h.frame with elrHyp := h.frame.elrHyp + instrLen h.frame.hsr } }

def stopCurrentGuestVcpu (h : Hyp P) (vcpu : VcpuIdx P) : HypExceptAction × Hyp P :=
  let h := h.setVcpu vcpu (hvVcpuTimerDisable (h.vcpu vcpu))
  let h := setState h vcpu .exited
  hvSchedulerAdvance (hvVtimerRearmPhysical h)

def logGuestAbort (h : Hyp P) : Hyp P :=
  if !h.hypExceptVerbose then h
  else
    let s := h.frame
    let iss := hsrIss s.hsr
    let f := "handle_guest_abort"
    let h := trace h f "Guest abort: ec=%d (%s) iss=%p status=%p\n"
      [.word (hsrEc s.hsr), .text (hsrEcName (hsrEc s.hsr)), .word iss,
        .word (iss &&& hsrIssFaultStatusMask)]
    trace h f "Guest abort regs: elr=%p hdfar=%p hifar=%p hpfar=%p ipa_hi=%p ipa_lo=%p\n"
      [.word s.elrHyp, .word s.hdfar, .word s.hifar, .word s.hpfar,
        .word ((faultPage s.hpfar >>> 32).setWidth 32), .word ((faultPage s.hpfar).setWidth 32)]

/-- Where the fault of a guest with a VM goes, by the region it hits. -/
def routeGuestAbort (h : Hyp P) (cur : VcpuIdx P) (vm : VmIdx P) : HypExceptAction × Hyp P :=
  let fault := decodeStage2Fault h cur
  match hvVmFindRegion (h.scheduler.vm vm) fault.ipa with
  | none => stopCurrentGuestVcpu (logStage2Fault h fault "unexpected-unmapped") cur
  | some region =>
    match region.type with
    | .ramGuard => stopCurrentGuestVcpu (logStage2Fault h fault "ram-guard-exit") cur
    | .mmio =>
      let (res, h) := hvMmioHandleFault (logStage2Fault h fault "mmio") cur fault
      if res = hvMmioOk then (.actionReturn, advanceTrappedGuestInstr h)
      else stopCurrentGuestVcpu (logStage2Fault h fault "mmio-unhandled") cur
    | .ram =>
      match hvStage2Translate (h.scheduler.vm vm) h.stage2TablePools fault.ipa with
      | .error _ => stopCurrentGuestVcpu (logStage2Fault h fault "valid-ram-unmapped") cur
      | .ok _ => stopCurrentGuestVcpu (logStage2Fault h fault "unexpected-mapped-ram") cur

def handleGuestAbort (h : Hyp P) : HypExceptAction × Hyp P :=
  let h := logGuestAbort h
  match hvSchedulerGetCurrent h with
  | none => (.actionHalt, h)
  | some cur =>
    if hvSchedulerIsIdleVcpu h (some cur) then (.actionHalt, h)
    else
      match (h.vcpu cur).vm with
      | none => (.actionHalt, logStage2Fault h (decodeStage2Fault h cur) "no-vm")
      | some vm => routeGuestAbort h cur vm

end Stage2Faults

section Traps

def handleHvcFromHyp (h : Hyp P) : HypResult P := do
  let h := trace h "handle_hvc_from_hyp" "HVC from Hyp\n" []
  hypAssert (hsrEcValid h.frame.hsr hypExceptionHvcFromHyp) "HSR EC mismatch"
  pure (.actionReturn, h)

def handleHvcFromLower (h : Hyp P) : HypResult P := do
  hypAssert (hsrEc h.frame.hsr == hsrEcHvcA32) "expected lower-mode HVC"
  hypAssert (hsrIssImm16 h.frame.hsr == hypercallHvcImm) "bad HVC immediate"
  hypHandleGuestHypercall h

/-- The handlers of exceptions taken from Hyp mode itself differ in their name and message. -/
def handleOwnException (function format : String) (exceptType : BitVec 32) (h : Hyp P) :
    HypResult P := do
  let h := trace (hypDumpUnexpectedExceptionState h) function format []
  hypAssert (hsrEcValid h.frame.hsr exceptType) "HSR EC mismatch"
  pure (.actionHalt, h)

def handleUndefInstr (h : Hyp P) : HypResult P :=
  handleOwnException "handle_undef_instr" "Undefined instruction in Hyp\n" hypExceptionUndefInstr h

def handleUnknown (h : Hyp P) : HypResult P :=
  handleOwnException "handle_unknown" "Unknown exception in Hyp\n" hypExceptionUnknown h

def handlePrefetchAbort (h : Hyp P) : HypResult P :=
  handleOwnException "handle_prefetch_abort" "Prefetch abort in Hyp\n" hypExceptionPrefetchAbort h

def handleDataAbort (h : Hyp P) : HypResult P :=
  handleOwnException "handle_data_abort" "Data abort in Hyp\n" hypExceptionDataAbort h

def handleLowerSync (h : Hyp P) : HypResult P := do
  hypAssert (hsrEcValid h.frame.hsr hypExceptionLowerSync) "HSR EC invalid"
  let ec := hsrEc h.frame.hsr
  if ec = hsrEcHvcA32 then handleHvcFromLower h
  else if ec = hsrEcWfiWfe then
    if hsrIss h.frame.hsr &&& hsrWfiWfeIsWfe ≠ 0 then
      haltWith h "handle_lower_sync" "Unhandled WFE trap in Hyp\n" []
    else .ok (hvSchedulerHandleWfi h)
  else if ec = hsrEcPrefetchAbortLower ∨ ec = hsrEcDataAbortLower then .ok (handleGuestAbort h)
  else if ec = hsrEcCp15McrMrc then
    let vcpuId := match hvSchedulerGetCurrent h with
      | none => 0xffffffff
      | some cur => (h.vcpu cur).id
    haltWith h "handle_lower_sync" "Unhandled guest CP15 trap: vcpu=%d iss=%p\n"
      [.word vcpuId, .word (hsrIss h.frame.hsr)]
  else haltWith h "handle_lower_sync" "Unhandled lower-level trap in Hyp\n" []

end Traps

section Interrupts

/-- Deliver one guest's timer if it has expired; `delivered` tells whether any was. -/
def deliverExpiredTimer (now : BitVec 64) (acc : Bool × Hyp P) (i : VmIdx P) :
    Except HypFault (Bool × Hyp P) :=
  let (delivered, h) := acc
  let vcpu := h.vcpu i.castSucc
  if vcpu.state = .idle ∨ vcpu.state = .exited ∨ !hvVcpuTimerExpired vcpu now then .ok (delivered, h)
  else
    let (res, raised) := hvVirqRaise vcpu virqTimer
    if res ≠ hvVirqErrBusy ∧ res ≠ 0 then
      .ok (delivered, trace h "deliver_expired_timers" "Failed to raise timer VIRQ: %d\n"
        [.word (BitVec.ofInt 32 res)])
    else
      -- a busy source is not raised again, but its timer moves on all the same
      match hvVcpuTimerAdvance raised now with
      | none => .error .endlessLoop
      | some vcpu => .ok (true, h.setVcpu i.castSucc vcpu)

def deliverExpiredTimers (h : Hyp P) (now : BitVec 64) : Except HypFault (Bool × Hyp P) :=
  (List.finRange P.hvMaxVms).foldlM (deliverExpiredTimer now) (false, h)

def countIrq (h : Hyp P) : Hyp P := { h with counter := h.counter + 1 }

def handleGenericTimer (h : Hyp P) : HypResult P := do
  let (action, h) := hvSchedulerAdvance (countIrq (genTimAck h))
  let h ← genTimRearm h
  pure (action, h)

def handleBcmTimer (h : Hyp P) : HypResult P := do
  let (ticks, h) := timSysGetTicks (countIrq (timClearPending h))
  let (delivered, h) ← deliverExpiredTimers h (ticks.setWidth 64)
  let h := hvVtimerRearmPhysical h
  let h := if delivered then hvVirqSync h (hvSchedulerGetCurrent h) else h
  if hvSchedulerIsIdleVcpu h (hvSchedulerGetCurrent h) then pure (hvSchedulerAdvance h)
  else pure (.actionReturn, h)

def handleIrq (h : Hyp P) : HypResult P :=
  if genTimIrqPending h then handleGenericTimer h
  else if timCheckIrq h then handleBcmTimer h
  else haltWith h "handle_irq" "Unexpected IRQ taken to Hyp\n" []

def handleFiq (h : Hyp P) : HypResult P :=
  haltWith h "handle_fiq" "Unexpected FIQ taken to Hyp\n" []

end Interrupts

def traceException (h : Hyp P) : Hyp P :=
  if h.hypExceptVerbose then hypDumpExceptionState h else h

def hypHandleException (h : Hyp P) : HypResult P :=
  let h := traceException h
  let exceptionType := h.frame.exceptionType
  if exceptionType = hypExceptionUndefInstr then handleUndefInstr h
  else if exceptionType = hypExceptionUnknown then handleUnknown h
  else if exceptionType = hypExceptionHvcFromHyp then handleHvcFromHyp h
  else if exceptionType = hypExceptionPrefetchAbort then handlePrefetchAbort h
  else if exceptionType = hypExceptionDataAbort then handleDataAbort h
  else if exceptionType = hypExceptionLowerSync then handleLowerSync h
  else if exceptionType = hypExceptionIrq then handleIrq h
  else if exceptionType = hypExceptionFiq then handleFiq h
  else haltWith h "hyp_handle_exception" "Unknown Hyp exception type\n" []

end PiPervisor.Hv
