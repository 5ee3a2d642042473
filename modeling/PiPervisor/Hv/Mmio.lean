import PiPervisor.Hv.Machine

/-! # Emulated devices

A stage-2 fault in an MMIO region is decoded from the syndrome, routed to the
virtual UART of the faulting VM, and completed in the trap frame.
-/
namespace PiPervisor.Hv
open Stage2

inductive HvStage2Access where
  | read
  | write
  | instruction
  deriving DecidableEq

structure HvStage2FaultInfo where
  vcpuId : BitVec 32
  vmId : BitVec 32
  ec : BitVec 32
  iss : BitVec 32
  status : BitVec 32
  level : BitVec 32
  ipa : HvIpa
  access : HvStage2Access
  isWrite : Bool
  isInstruction : Bool
  ipaOffsetValid : Bool
  deriving DecidableEq

def hvMmioOk : ℤ := 0
def hvMmioErrUnhandled : ℤ := -1

def hsrIssFaultStatusMask : BitVec 32 := 0x3f
def hsrIssAbortWnr : BitVec 32 := 1 <<< 6
def hsrIssAbortS1ptw : BitVec 32 := 1 <<< 7
def hsrIssAbortFnv : BitVec 32 := 1 <<< 10
def hsrIssAbortSse : BitVec 32 := 1 <<< 21
def hsrIssAbortIsv : BitVec 32 := 1 <<< 24

def hvGuestMmioBase : BitVec 32 := 0x10000000
def hvGuestUartBase : BitVec 32 := hvGuestMmioBase + 0x0000
def hvGuestUartSize : BitVec 64 := hvStage2PageSize

variable {P : Platform}

section Vuart

def hvGuestAuxEnables : BitVec 32 := 0x04
def hvGuestAuxMuIoReg : BitVec 32 := 0x40
def hvGuestAuxMuIerReg : BitVec 32 := 0x44
def hvGuestAuxMuIirReg : BitVec 32 := 0x48
def hvGuestAuxMuLcrReg : BitVec 32 := 0x4C
def hvGuestAuxMuMcrReg : BitVec 32 := 0x50
def hvGuestAuxMuLsrReg : BitVec 32 := 0x54
def hvGuestAuxMuMsrReg : BitVec 32 := 0x58
def hvGuestAuxMuScratch : BitVec 32 := 0x5C
def hvGuestAuxMuCntlReg : BitVec 32 := 0x60
def hvGuestAuxMuStatReg : BitVec 32 := 0x64
def hvGuestAuxMuBaudReg : BitVec 32 := 0x68

def vuartLsrRxReady : BitVec 32 := 1 <<< 0
def vuartLsrTxReady : BitVec 32 := 1 <<< 5
def vuartLsrTxEmpty : BitVec 32 := 1 <<< 6
def vuartStatTxCanAccept : BitVec 32 := 1 <<< 1

def vuartValidAccess (P : Platform) (vmId : ℕ) (size : BitVec 32) : Bool :=
  vmId < P.hvMaxVms && (size == 1 || size == 2 || size == 4)

/-- The registers that keep what is written to them. -/
def vuartStore (uart : HvVirtualUart) (offset value : BitVec 32) : Option HvVirtualUart :=
  if offset = hvGuestAuxEnables then some { uart with auxEnables := value &&& 1 }
  else if offset = hvGuestAuxMuIerReg then some { uart with ier := value }
  else if offset = hvGuestAuxMuIirReg then some { uart with iir := value }
  else if offset = hvGuestAuxMuLcrReg then some { uart with lcr := value }
  else if offset = hvGuestAuxMuMcrReg then some { uart with mcr := value }
  else if offset = hvGuestAuxMuScratch then some { uart with scratch := value }
  else if offset = hvGuestAuxMuCntlReg then some { uart with cntl := value }
  else if offset = hvGuestAuxMuStatReg then some { uart with stat := value }
  else if offset = hvGuestAuxMuBaudReg then some { uart with baud := value }
  else none

/-- The registers whose value does not come out of the receive FIFO. -/
def vuartLoad (uart : HvVirtualUart) (hasData : Bool) (offset : BitVec 32) : Option (BitVec 32) :=
  if offset = hvGuestAuxEnables then some uart.auxEnables
  else if offset = hvGuestAuxMuIerReg then some uart.ier
  else if offset = hvGuestAuxMuIirReg then some uart.iir
  else if offset = hvGuestAuxMuLcrReg then some uart.lcr
  else if offset = hvGuestAuxMuMcrReg then some uart.mcr
  else if offset = hvGuestAuxMuLsrReg then
    some (vuartLsrTxReady ||| vuartLsrTxEmpty ||| if hasData then vuartLsrRxReady else 0)
  else if offset = hvGuestAuxMuMsrReg then some uart.msr
  else if offset = hvGuestAuxMuScratch then some uart.scratch
  else if offset = hvGuestAuxMuCntlReg then some uart.cntl
  else if offset = hvGuestAuxMuStatReg then some (uart.stat ||| vuartStatTxCanAccept)
  else if offset = hvGuestAuxMuBaudReg then some uart.baud
  else none

def hvVuartWrite (h : Hyp P) (vmId : ℕ) (offset value size : BitVec 32) : ℤ × Hyp P :=
  if !vuartValidAccess P vmId size then (hvMmioErrUnhandled, h)
  else if offset = hvGuestAuxMuIoReg then (hvMmioOk, uartPut8 h (value.setWidth 8))
  else
    match vuartStore (h.vuarts vmId) offset value with
    | none => (hvMmioErrUnhandled, h)
    | some uart => (hvMmioOk, { h with vuarts := Function.update h.vuarts vmId uart })

/-- The result code, the value read and the state; a failing read leaves `value` as it was. -/
def hvVuartRead (h : Hyp P) (vmId : ℕ) (offset size value : BitVec 32) : ℤ × BitVec 32 × Hyp P :=
  if !vuartValidAccess P vmId size then (hvMmioErrUnhandled, value, h)
  else if offset = hvGuestAuxMuIoReg then
    let (c, h) := uartGet8Async h
    (hvMmioOk, if c < 0 then 0 else BitVec.ofInt 32 c, h)
  else
    match vuartLoad (h.vuarts vmId) (uartHasData h) offset with
    | none => (hvMmioErrUnhandled, value, h)
    | some v => (hvMmioOk, v, h)

end Vuart

/-- Access of a VM to the device of a region: result code, value read and state. -/
def hvVirtualDeviceAccess (h : Hyp P) (vmId : ℕ) (region : HvVmRegion) (fault : HvStage2FaultInfo)
    (size writeValue readValue : BitVec 32) : ℤ × BitVec 32 × Hyp P :=
  if vmId ≥ P.hvMaxVms then (hvMmioErrUnhandled, readValue, h)
  else
    let offset := (fault.ipa - region.ipaBase).setWidth 32
    if offset &&& (size - 1) ≠ 0 then (hvMmioErrUnhandled, readValue, h)
    else
      match region.device with
      | .vuart =>
        if fault.isWrite then
          let (res, h) := hvVuartWrite h vmId offset writeValue size
          (res, readValue, h)
        else hvVuartRead h vmId offset size readValue
      | .none => (hvMmioErrUnhandled, readValue, h)

section Decode

def mmioAccessSize (iss : BitVec 32) : BitVec 32 :=
  let sas := (iss >>> 22) &&& 0x3
  if sas = 0 then 1 else if sas = 1 then 2 else if sas = 2 then 4 else 0

def mmioAccessReg (iss : BitVec 32) : BitVec 32 := (iss >>> 16) &&& 0x1f

/-- The guest register with this number, if the trap frame holds it. -/
def mmioReadGuestReg (frame : HypExceptState) (reg : BitVec 32) : Option (BitVec 32) :=
  if h : reg.toNat < 13 then some (frame.r ⟨reg.toNat, h⟩)
  else if reg = 14 then some frame.lr
  else none

def mmioWriteGuestReg (frame : HypExceptState) (reg value : BitVec 32) : Option HypExceptState :=
  if h : reg.toNat < 13 then some { frame with r := Function.update frame.r ⟨reg.toNat, h⟩ value }
  else if reg = 14 then some { frame with lr := value }
  else none

def mmioMaskValue (value size : BitVec 32) (signExtend : Bool) : BitVec 32 :=
  if size = 1 then
    let value := value &&& 0xff
    if signExtend ∧ value &&& 0x80 ≠ 0 then value ||| 0xffffff00 else value
  else if size = 2 then
    let value := value &&& 0xffff
    if signExtend ∧ value &&& 0x8000 ≠ 0 then value ||| 0xffff0000 else value
  else if size = 4 then value
  else 0

/-- Size and register of an access the syndrome describes. -/
def mmioDecodeAccess (fault : HvStage2FaultInfo) : Option (BitVec 32 × BitVec 32) :=
  if fault.isInstruction ∨ !fault.ipaOffsetValid ∨ fault.iss &&& hsrIssAbortIsv = 0 ∨
      fault.iss &&& hsrIssAbortS1ptw ≠ 0 then none
  else if mmioAccessSize fault.iss = 0 then none
  else some (mmioAccessSize fault.iss, mmioAccessReg fault.iss)

end Decode

def accessNumber : HvStage2Access → BitVec 32
  | .read => 0
  | .write => 1
  | .instruction => 2

/-- Value of a store: the register, reduced to the access size; 0 for a load. -/
def mmioWriteValue (h : Hyp P) (fault : HvStage2FaultInfo) (size reg : BitVec 32) :
    Option (BitVec 32) :=
  if fault.isWrite then (mmioReadGuestReg h.frame reg).map (mmioMaskValue · size false)
  else some 0

/-- Finish an access the device has served: a load writes its register. -/
def mmioFinish (h : Hyp P) (fault : HvStage2FaultInfo) (size reg readValue : BitVec 32) :
    ℤ × Hyp P :=
  if fault.isWrite then (hvMmioOk, h)
  else
    let signExtend := fault.iss &&& hsrIssAbortSse != 0
    match mmioWriteGuestReg h.frame reg (mmioMaskValue readValue size signExtend) with
    | none => (hvMmioErrUnhandled, h)
    | some frame => (hvMmioOk, { h with frame := frame })

def hvMmioHandleFault (h : Hyp P) (vcpu : VcpuIdx P) (fault : HvStage2FaultInfo) : ℤ × Hyp P :=
  match (h.vcpu vcpu).vm with
  | none => (hvMmioErrUnhandled, h)
  | some vm =>
    match mmioDecodeAccess fault with
    | none =>
      (hvMmioErrUnhandled, trace h "hv_mmio_handle_fault"
        "unsupported mmio fault decode: vcpu=%d vm=%d ipa=%p iss=%p\n"
        [.word fault.vcpuId, .word fault.vmId, .word (fault.ipa.setWidth 32), .word fault.iss])
    | some (size, reg) =>
      match hvVmFindRegion (h.scheduler.vm vm) fault.ipa with
      | none => (hvMmioErrUnhandled, h)
      | some region =>
        if region.type ≠ .mmio then (hvMmioErrUnhandled, h)
        else
          match mmioWriteValue h fault size reg with
          | none => (hvMmioErrUnhandled, h)
          | some value =>
            let (res, readValue, h) :=
              hvVirtualDeviceAccess h (h.scheduler.vm vm).id region fault size value 0
            if res ≠ hvMmioOk then
              (hvMmioErrUnhandled, trace h "hv_mmio_handle_fault"
                "unsupported mmio access: vcpu=%d vm=%d ipa=%p offset=%p access=%d size=%d\n"
                [.word fault.vcpuId, .word fault.vmId, .word (fault.ipa.setWidth 32),
                  .word ((fault.ipa - region.ipaBase).setWidth 32),
                  .word (accessNumber fault.access), .word size])
            else mmioFinish h fault size reg readValue

end PiPervisor.Hv
