import PiPervisor.Hv.MmioSpec
import PiPervisor.Hv.Runs

/-! # What a refused access leaves behind

Whatever is wrong with an access, the trap frame and the registers of the virtual UARTs
stay as they are, and the output of the UART grows by the report of the refusal alone.
The register of a load is looked at last, after the device has been read.
-/
namespace PiPervisor.Hv
open Stage2

variable {P : Platform} {h : Hyp P} {vcpu : VcpuIdx P} {fault : HvStage2FaultInfo}

/-- The trap frame holds the register with this number. -/
def InFrame (reg : BitVec 32) : Prop := reg.toNat < 13 ∨ reg = 14

instance (reg : BitVec 32) : Decidable (InFrame reg) := by
  unfold InFrame
  infer_instance

/-- A load that the device serves from the receive register, for a register that the trap frame
does not hold. -/
def ReceivesNowhere (h : Hyp P) (vcpu : VcpuIdx P) (fault : HvStage2FaultInfo) : Prop :=
  fault.isWrite = false ∧ ∃ q, mmioRequest h vcpu fault = some q ∧
    (q.access h fault).1 = hvMmioOk ∧ ¬ InFrame q.reg ∧
    regionOffset q.region fault = hvGuestAuxMuIoReg

theorem mmioWriteGuestReg_eq_none {frame : HypExceptState} {reg value : BitVec 32}
    (hn : mmioWriteGuestReg frame reg value = none) : ¬ InFrame reg := by
  rw [mmioWriteGuestReg] at hn
  split at hn
  · cases hn
  · split at hn
    · cases hn
    · rename_i hlow hlr
      exact not_or.mpr ⟨hlow, hlr⟩

/-- Finishing fails for a load without a register, and changes nothing then. -/
theorem mmioFinish_refused {size reg value : BitVec 32}
    (hr : (mmioFinish h fault size reg value).1 = hvMmioErrUnhandled) :
    fault.isWrite = false ∧ ¬ InFrame reg ∧ (mmioFinish h fault size reg value).2 = h := by
  rw [mmioFinish] at hr ⊢
  by_cases hw : fault.isWrite = true
  · rw [if_pos hw] at hr
    exact absurd hr.symm hvMmioErrUnhandled_ne
  · rw [if_neg hw] at hr ⊢
    dsimp only at hr ⊢
    rcases hg : mmioWriteGuestReg h.frame reg
      (mmioMaskValue value size (fault.iss &&& hsrIssAbortSse != 0)) with - | frame
    · exact ⟨Bool.eq_false_of_not_eq_true hw, mmioWriteGuestReg_eq_none hg, rfl⟩
    · rw [hg] at hr
      exact absurd hr.symm hvMmioErrUnhandled_ne

theorem uartGet8Async_state (h : Hyp P) :
    (uartGet8Async h).2 = { h with uart := { h.uart with rx := h.uart.rx.tail } } := by
  rw [uartGet8Async]
  split
  · rename_i hrx
    rw [hrx, List.tail_nil, ← hrx]
  · rename_i byte rx hrx
    rw [hrx, List.tail_cons]

/-- Only a load from the receive register touches the machine, and only its input. -/
theorem access_load_state {q : MmioRequest P} (hw : fault.isWrite = false)
    (hok : (q.access h fault).1 = hvMmioOk) :
    (q.access h fault).2.2 = { h with uart := { h.uart with
      rx := if regionOffset q.region fault = hvGuestAuxMuIoReg then h.uart.rx.tail
        else h.uart.rx } } := by
  rw [MmioRequest.access] at hok ⊢
  obtain ⟨-, he⟩ := hvVirtualDeviceAccess_ok hok
  rw [he, if_neg (by rw [hw]; decide)] at hok ⊢
  rcases hvVuartRead_ok hok with ⟨hio, hread⟩ | ⟨hio, v, -, hread⟩
  · rw [hread, if_pos hio, uartGet8Async_state]
  · rw [hread, if_neg hio]

/-- Everything that a refused access changes. -/
theorem hvMmioHandleFault_refused
    (hr : (hvMmioHandleFault h vcpu fault).1 = hvMmioErrUnhandled) :
    ∃ rx, (hvMmioHandleFault h vcpu fault).2 = { h with uart :=
        { rx := rx, tx := h.uart.tx ++ refusalReport h vcpu fault } } ∧
      (¬ ReceivesNowhere h vcpu fault → rx = h.uart.rx) := by
  rcases hvMmioHandleFault_eq h vcpu fault with ⟨he, -⟩ | ⟨q, hq, hok, he⟩
  · rw [he]
    exact ⟨h.uart.rx, rfl, fun _ => rfl⟩
  · rw [he] at hr ⊢
    obtain ⟨hw, hreg, hstate⟩ := mmioFinish_refused hr
    have hreport : refusalReport h vcpu fault = [] := by
      obtain ⟨hvm, hdecode, -⟩ := mmioRequest_eq_some hq
      simp only [refusalReport, hvm, hdecode, hq, if_pos hok]
    rw [hstate, access_load_state hw hok, hreport, List.append_nil]
    exact ⟨_, rfl, fun hno => if_neg fun hio => hno ⟨hw, q, hq, hok, hreg, hio⟩⟩

/-- A refused access changes no register of the guest and no virtual device. It is reported on the
UART, and it takes nothing from the receive FIFO unless its target is a register that the frame does
not hold. -/
theorem refused_access_effect (h : Hyp P) (vcpu : VcpuIdx P) (fault : HvStage2FaultInfo)
    (hr : (hvMmioHandleFault h vcpu fault).1 = hvMmioErrUnhandled) :
    let h' := (hvMmioHandleFault h vcpu fault).2
    h'.frame = h.frame ∧ h'.vuarts = h.vuarts ∧
      h'.uart.tx = h.uart.tx ++ refusalReport h vcpu fault ∧
      (¬ ReceivesNowhere h vcpu fault → h'.uart.rx = h.uart.rx) := by
  obtain ⟨rx, he, hrx⟩ := hvMmioHandleFault_refused hr
  rw [he]
  exact ⟨rfl, rfl, rfl, hrx⟩

/-- A guest with a virtual UART, and a byte that has been received. -/
def consoleGuest : Hyp Platform.twoSlots :=
  { resetMemory 0 with
    scheduler :=
      { (resetMemory 0).scheduler with
        vm := fun _ => ⟨0, 0, [guestUartRegion], ⟨0, 0, 0, 0, 0, 0⟩⟩
        vcpus := fun _ => { (resetMemory 0).vcpu 0 with vm := some (firstVm _) } }
    uart := ⟨[0x61], []⟩ }

/-- A load from the virtual UART. -/
def uartLoad (offset iss : BitVec 32) : HvStage2FaultInfo where
  vcpuId := 0
  vmId := 0
  ec := hsrEcDataAbortLower
  iss := iss
  status := 0
  level := 3
  ipa := (hvGuestUartBase + offset).setWidth 64
  access := .read
  isWrite := false
  isInstruction := false
  ipaOffsetValid := true

/-- A syndrome that describes no access is reported. -/
theorem refused_access_effect_invalid :
    let fault := uartLoad hvGuestAuxMuScratch (1#32 <<< 16)
    (hvMmioHandleFault consoleGuest 0 fault).2.uart.tx = [decodeReport fault] ∧
      (hvMmioHandleFault consoleGuest 0 fault).2.uart.rx = [0x61] := by
  intro fault
  obtain ⟨-, -, htx, hrx⟩ := refused_access_effect consoleGuest 0 fault (by decide)
  refine ⟨htx.trans (by decide), hrx ?_⟩
  rintro ⟨-, q, hq, -⟩
  have hnone : (mmioRequest consoleGuest 0 fault).isNone = true := by decide
  rw [hq] at hnone
  cases hnone

/-- That report is output, and a load from the receive register to the stack pointer takes a
byte from the input. -/
theorem refused_access_has_effect :
    let invalid := uartLoad hvGuestAuxMuScratch (1#32 <<< 16)
    let toSp := uartLoad hvGuestAuxMuIoReg (hsrIssAbortIsv ||| 13#32 <<< 16)
    (hvMmioHandleFault consoleGuest 0 invalid).1 = hvMmioErrUnhandled ∧
      (hvMmioHandleFault consoleGuest 0 invalid).2.uart.tx ≠ consoleGuest.uart.tx ∧
      (hvMmioHandleFault consoleGuest 0 toSp).1 = hvMmioErrUnhandled ∧
      (hvMmioHandleFault consoleGuest 0 toSp).2.uart.rx ≠ consoleGuest.uart.rx := by
  decide

end PiPervisor.Hv
