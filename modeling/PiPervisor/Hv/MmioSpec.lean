import PiPervisor.Hv.Mmio

/-! # What an emulated access does

An access that is served has passed every check on its way to the virtual UART of its
VM; one that is not served leaves everything but the output of the UART as it was.
-/
namespace PiPervisor.Hv
open Stage2

variable {P : Platform} {h : Hyp P} {vmId : ℕ} {offset value size : BitVec 32}

section Vuart

theorem hvMmioErrUnhandled_ne : hvMmioErrUnhandled ≠ hvMmioOk := by decide

/-- A store that is accepted goes to the UART line or to a register of the VM. -/
theorem hvVuartWrite_ok (hok : (hvVuartWrite h vmId offset value size).1 = hvMmioOk) :
    (offset = hvGuestAuxMuIoReg ∧
      hvVuartWrite h vmId offset value size = (hvMmioOk, uartPut8 h (value.setWidth 8))) ∨
    offset ≠ hvGuestAuxMuIoReg ∧ ∃ uart, vuartStore (h.vuarts vmId) offset value = some uart ∧
      hvVuartWrite h vmId offset value size =
        (hvMmioOk, { h with vuarts := Function.update h.vuarts vmId uart }) := by
  rw [hvVuartWrite] at hok ⊢
  split at hok
  · exact absurd hok hvMmioErrUnhandled_ne
  · rename_i hvalid
    rw [if_neg hvalid]
    by_cases hio : offset = hvGuestAuxMuIoReg
    · exact .inl ⟨hio, if_pos hio⟩
    · rw [if_neg hio] at hok ⊢
      rcases hs : vuartStore (h.vuarts vmId) offset value with - | uart <;> rw [hs] at hok
      · exact absurd hok hvMmioErrUnhandled_ne
      · exact .inr ⟨hio, uart, rfl, rfl⟩

theorem hvVuartWrite_not_ok (hno : (hvVuartWrite h vmId offset value size).1 ≠ hvMmioOk) :
    (hvVuartWrite h vmId offset value size).2 = h := by
  rw [hvVuartWrite] at hno ⊢
  split at hno
  · rename_i hvalid
    rw [if_pos hvalid]
  · rename_i hvalid
    rw [if_neg hvalid]
    by_cases hio : offset = hvGuestAuxMuIoReg
    · rw [if_pos hio] at hno
      exact absurd rfl hno
    · rw [if_neg hio] at hno ⊢
      rcases hs : vuartStore (h.vuarts vmId) offset value with - | uart
      · rfl
      · rw [hs] at hno
        exact absurd rfl hno

/-- A load that is accepted takes a byte from the UART line or reads a register of the VM. -/
theorem hvVuartRead_ok (hok : (hvVuartRead h vmId offset size value).1 = hvMmioOk) :
    (offset = hvGuestAuxMuIoReg ∧ (hvVuartRead h vmId offset size value).2.2 = (uartGet8Async h).2) ∨
    offset ≠ hvGuestAuxMuIoReg ∧ ∃ v, vuartLoad (h.vuarts vmId) (uartHasData h) offset = some v ∧
      hvVuartRead h vmId offset size value = (hvMmioOk, v, h) := by
  rw [hvVuartRead] at hok ⊢
  split at hok
  · exact absurd hok hvMmioErrUnhandled_ne
  · rename_i hvalid
    rw [if_neg hvalid]
    by_cases hio : offset = hvGuestAuxMuIoReg
    · rw [if_pos hio]
      exact .inl ⟨hio, rfl⟩
    · rw [if_neg hio] at hok ⊢
      rcases hl : vuartLoad (h.vuarts vmId) (uartHasData h) offset with - | v <;> rw [hl] at hok
      · exact absurd hok hvMmioErrUnhandled_ne
      · exact .inr ⟨hio, v, rfl, rfl⟩

theorem hvVuartRead_not_ok (hno : (hvVuartRead h vmId offset size value).1 ≠ hvMmioOk) :
    (hvVuartRead h vmId offset size value).2.2 = h := by
  rw [hvVuartRead] at hno ⊢
  split at hno
  · rename_i hvalid
    rw [if_pos hvalid]
  · rename_i hvalid
    rw [if_neg hvalid]
    by_cases hio : offset = hvGuestAuxMuIoReg
    · rw [if_pos hio] at hno
      exact absurd rfl hno
    · rw [if_neg hio] at hno ⊢
      rcases vuartLoad (h.vuarts vmId) (uartHasData h) offset with - | v <;> rfl

end Vuart

section Device
variable {region : HvVmRegion} {fault : HvStage2FaultInfo} {readValue : BitVec 32}

/-- Where in its region an access goes. -/
def regionOffset (region : HvVmRegion) (fault : HvStage2FaultInfo) : BitVec 32 :=
  (fault.ipa - region.ipaBase).setWidth 32

theorem hvVirtualDeviceAccess_ok
    (hok : (hvVirtualDeviceAccess h vmId region fault size value readValue).1 = hvMmioOk) :
    region.device = .vuart ∧
      hvVirtualDeviceAccess h vmId region fault size value readValue =
        if fault.isWrite then
          ((hvVuartWrite h vmId (regionOffset region fault) value size).1, readValue,
            (hvVuartWrite h vmId (regionOffset region fault) value size).2)
        else hvVuartRead h vmId (regionOffset region fault) size readValue := by
  rw [hvVirtualDeviceAccess] at hok ⊢
  split at hok
  · exact absurd hok hvMmioErrUnhandled_ne
  rename_i hid
  rw [if_neg hid]
  dsimp only at hok ⊢
  split at hok
  · exact absurd hok hvMmioErrUnhandled_ne
  rename_i haligned
  rw [if_neg haligned]
  rcases hd : region.device with - | - <;> rw [hd] at hok
  · exact absurd hok hvMmioErrUnhandled_ne
  · exact ⟨rfl, rfl⟩

theorem hvVirtualDeviceAccess_not_ok
    (hno : (hvVirtualDeviceAccess h vmId region fault size value readValue).1 ≠ hvMmioOk) :
    (hvVirtualDeviceAccess h vmId region fault size value readValue).2.2 = h := by
  rw [hvVirtualDeviceAccess] at hno ⊢
  split at hno
  · rename_i hid
    rw [if_pos hid]
  rename_i hid
  rw [if_neg hid]
  dsimp only at hno ⊢
  split at hno
  · rename_i haligned
    rw [if_pos haligned]
  rename_i haligned
  rw [if_neg haligned]
  rcases hd : region.device with - | -
  · rfl
  · rw [hd] at hno
    dsimp only at hno ⊢
    by_cases hw : fault.isWrite = true
    · rw [if_pos hw] at hno ⊢
      exact hvVuartWrite_not_ok hno
    · rw [if_neg hw] at hno ⊢
      exact hvVuartRead_not_ok hno

theorem uartGet8Async_touches (h : Hyp P) : ∃ uart, (uartGet8Async h).2 = { h with uart := uart } := by
  rw [uartGet8Async]
  split <;> exact ⟨_, rfl⟩

/-- A device access reaches the UART line and the registers of the virtual UARTs only. -/
theorem hvVirtualDeviceAccess_touches (h : Hyp P) (vmId : ℕ) (region : HvVmRegion)
    (fault : HvStage2FaultInfo) (size value readValue : BitVec 32) : ∃ uart vuarts,
      (hvVirtualDeviceAccess h vmId region fault size value readValue).2.2 =
        { h with uart := uart, vuarts := vuarts } := by
  by_cases hok : (hvVirtualDeviceAccess h vmId region fault size value readValue).1 = hvMmioOk
  · obtain ⟨-, he⟩ := hvVirtualDeviceAccess_ok hok
    rw [he] at hok ⊢
    by_cases hw : fault.isWrite = true
    · rw [if_pos hw] at hok ⊢
      rcases hvVuartWrite_ok hok with ⟨-, hwrite⟩ | ⟨-, uart, -, hwrite⟩
      · rw [hwrite]
        exact ⟨_, _, rfl⟩
      · rw [hwrite]
        exact ⟨_, _, rfl⟩
    · rw [if_neg hw] at hok ⊢
      rcases hvVuartRead_ok hok with ⟨-, hread⟩ | ⟨-, v, -, hread⟩
      · obtain ⟨uart, hget⟩ := uartGet8Async_touches h
        exact ⟨uart, h.vuarts, hread.trans hget⟩
      · rw [hread]
        exact ⟨_, _, rfl⟩
  · exact ⟨h.uart, h.vuarts, hvVirtualDeviceAccess_not_ok hok⟩

end Device

section Access

/-- A decoded access that reaches the device of an MMIO region of its VM. -/
structure MmioRequest (P : Platform) where
  vm : VmIdx P
  region : HvVmRegion
  size : BitVec 32
  reg : BitVec 32
  value : BitVec 32

/-- The access that a fault describes. -/
def mmioRequest (h : Hyp P) (vcpu : VcpuIdx P) (fault : HvStage2FaultInfo) :
    Option (MmioRequest P) :=
  (h.vcpu vcpu).vm.bind fun vm =>
    (mmioDecodeAccess fault).bind fun (size, reg) =>
      (hvVmFindRegion (h.scheduler.vm vm) fault.ipa).bind fun region =>
        if region.type ≠ .mmio then none
        else (mmioWriteValue h fault size reg).map fun value => ⟨vm, region, size, reg, value⟩

/-- What the device makes of it. -/
def MmioRequest.access (q : MmioRequest P) (h : Hyp P) (fault : HvStage2FaultInfo) :
    ℤ × BitVec 32 × Hyp P :=
  hvVirtualDeviceAccess h (h.scheduler.vm q.vm).id q.region fault q.size q.value 0

/-- What is printed about a fault that describes no access. -/
def decodeReport (fault : HvStage2FaultInfo) : UartOut :=
  .trace "hv_mmio_handle_fault" "unsupported mmio fault decode: vcpu=%d vm=%d ipa=%p iss=%p\n"
    [.word fault.vcpuId, .word fault.vmId, .word (fault.ipa.setWidth 32), .word fault.iss]

/-- What is printed about an access that the device refuses. -/
def MmioRequest.report (q : MmioRequest P) (fault : HvStage2FaultInfo) : UartOut :=
  .trace "hv_mmio_handle_fault"
    "unsupported mmio access: vcpu=%d vm=%d ipa=%p offset=%p access=%d size=%d\n"
    [.word fault.vcpuId, .word fault.vmId, .word (fault.ipa.setWidth 32),
      .word (regionOffset q.region fault), .word (accessNumber fault.access), .word q.size]

/-- What is printed about an access; nothing once the device has served it. -/
def refusalReport (h : Hyp P) (vcpu : VcpuIdx P) (fault : HvStage2FaultInfo) : List UartOut :=
  match (h.vcpu vcpu).vm with
  | none => []
  | some _ =>
    match mmioDecodeAccess fault with
    | none => [decodeReport fault]
    | some _ =>
      match mmioRequest h vcpu fault with
      | none => []
      | some q => if (q.access h fault).1 = hvMmioOk then [] else [q.report fault]

/-- The state after some output. -/
def Hyp.send (h : Hyp P) (out : List UartOut) : Hyp P :=
  { h with uart := { h.uart with tx := h.uart.tx ++ out } }

theorem send_nil (h : Hyp P) : h.send [] = h := by rw [Hyp.send, List.append_nil]

/-- An access is refused with its report, or it is served by the device and finished. -/
theorem hvMmioHandleFault_eq (h : Hyp P) (vcpu : VcpuIdx P) (fault : HvStage2FaultInfo) :
    (hvMmioHandleFault h vcpu fault = (hvMmioErrUnhandled, h.send (refusalReport h vcpu fault)) ∧
      ∀ q, mmioRequest h vcpu fault = some q → (q.access h fault).1 ≠ hvMmioOk) ∨
    ∃ q, mmioRequest h vcpu fault = some q ∧ (q.access h fault).1 = hvMmioOk ∧
      hvMmioHandleFault h vcpu fault =
        mmioFinish (q.access h fault).2.2 fault q.size q.reg (q.access h fault).2.1 := by
  rw [hvMmioHandleFault, refusalReport, mmioRequest]
  rcases (h.vcpu vcpu).vm with - | vm
  · exact .inl ⟨congrArg _ (send_nil h).symm, nofun⟩
  rcases mmioDecodeAccess fault with - | ⟨size, reg⟩
  · exact .inl ⟨rfl, nofun⟩
  rw [Option.bind_some, Option.bind_some]
  dsimp only
  rcases hvVmFindRegion (h.scheduler.vm vm) fault.ipa with - | region
  · exact .inl ⟨congrArg _ (send_nil h).symm, nofun⟩
  rw [Option.bind_some]
  dsimp only
  by_cases ht : region.type ≠ .mmio
  · rw [if_pos ht, if_pos ht]
    exact .inl ⟨congrArg _ (send_nil h).symm, nofun⟩
  rw [if_neg ht, if_neg ht]
  rcases mmioWriteValue h fault size reg with - | value
  · exact .inl ⟨congrArg _ (send_nil h).symm, nofun⟩
  dsimp only
  rw [Option.map_some]
  by_cases hok : (hvVirtualDeviceAccess h (h.scheduler.vm vm).id region fault size value 0).1 =
      hvMmioOk
  · rw [if_neg (not_not.mpr hok)]
    exact .inr ⟨_, rfl, hok, rfl⟩
  · rw [if_pos hok, hvVirtualDeviceAccess_not_ok hok]
    refine .inl ⟨?_, fun q hq => ?_⟩
    · exact congrArg (fun out => (hvMmioErrUnhandled, h.send out)) (if_neg hok).symm
    · obtain rfl := Option.some.inj hq
      exact hok

/-- An access is served by the device, or refused without a trace but on the UART. -/
theorem hvMmioHandleFault_cases (h : Hyp P) (vcpu : VcpuIdx P) (fault : HvStage2FaultInfo) :
    (∃ uart, hvMmioHandleFault h vcpu fault = (hvMmioErrUnhandled, { h with uart := uart }) ∧
      ∀ q, mmioRequest h vcpu fault = some q → (q.access h fault).1 ≠ hvMmioOk) ∨
    ∃ q, mmioRequest h vcpu fault = some q ∧ (q.access h fault).1 = hvMmioOk ∧
      hvMmioHandleFault h vcpu fault =
        mmioFinish (q.access h fault).2.2 fault q.size q.reg (q.access h fault).2.1 :=
  (hvMmioHandleFault_eq h vcpu fault).imp_left fun hrefused => ⟨_, hrefused⟩

theorem mmioRequest_eq_some {vcpu : VcpuIdx P} {fault : HvStage2FaultInfo} {q : MmioRequest P}
    (hq : mmioRequest h vcpu fault = some q) : (h.vcpu vcpu).vm = some q.vm ∧
      mmioDecodeAccess fault = some (q.size, q.reg) ∧
      hvVmFindRegion (h.scheduler.vm q.vm) fault.ipa = some q.region ∧ q.region.type = .mmio ∧
      mmioWriteValue h fault q.size q.reg = some q.value := by
  rw [mmioRequest] at hq
  obtain ⟨vm, hvm, hq⟩ := Option.bind_eq_some_iff.mp hq
  obtain ⟨⟨size, reg⟩, hdecode, hq⟩ := Option.bind_eq_some_iff.mp hq
  obtain ⟨region, hregion, hq⟩ := Option.bind_eq_some_iff.mp hq
  by_cases ht : region.type ≠ .mmio
  · rw [if_pos ht] at hq
    cases hq
  · rw [if_neg ht] at hq
    obtain ⟨value, hvalue, rfl⟩ := Option.map_eq_some_iff.mp hq
    exact ⟨hvm, hdecode, hregion, not_not.mp ht, hvalue⟩

/-- What a syndrome that is decoded describes. -/
theorem mmioDecodeAccess_eq_some {fault : HvStage2FaultInfo} {size reg : BitVec 32}
    (hd : mmioDecodeAccess fault = some (size, reg)) :
    fault.isInstruction = false ∧ size = mmioAccessSize fault.iss ∧ size ≠ 0 ∧
      reg = mmioAccessReg fault.iss := by
  rw [mmioDecodeAccess] at hd
  split at hd
  · cases hd
  · rename_i hn
    split at hd
    · cases hd
    · rename_i hsize
      cases hd
      exact ⟨by simpa using fun hi => hn (.inl hi), rfl, hsize, rfl⟩

/-- Emulating an access writes the live frame, the UARTs and nothing else. -/
theorem hvMmioHandleFault_touches (h : Hyp P) (vcpu : VcpuIdx P) (fault : HvStage2FaultInfo) :
    ∃ frame uart vuarts, (hvMmioHandleFault h vcpu fault).2 =
      { h with frame := frame, uart := uart, vuarts := vuarts } := by
  rcases hvMmioHandleFault_cases h vcpu fault with ⟨uart, he, -⟩ | ⟨q, -, -, he⟩
  · rw [he]
    exact ⟨_, _, _, rfl⟩
  · obtain ⟨uart, vuarts, ha⟩ := hvVirtualDeviceAccess_touches h (h.scheduler.vm q.vm).id q.region
      fault q.size q.value 0
    rw [he, MmioRequest.access, ha, mmioFinish]
    split
    · exact ⟨_, _, _, rfl⟩
    · dsimp only
      split <;> exact ⟨_, _, _, rfl⟩

/-- Only an access to a device region can be served. -/
theorem hvMmioHandleFault_unserved {c : VcpuIdx P} {fault : HvStage2FaultInfo} {i : VmIdx P}
    (hvm : (h.vcpu c).vm = some i)
    (hr : ∀ region, hvVmFindRegion (h.scheduler.vm i) fault.ipa = some region → region.type ≠ .mmio) :
    (hvMmioHandleFault h c fault).1 ≠ hvMmioOk := by
  rcases hvMmioHandleFault_cases h c fault with ⟨uart, he, -⟩ | ⟨q, hq, -, -⟩
  · rw [he]
    exact hvMmioErrUnhandled_ne
  · obtain ⟨hqvm, -, hregion, htype, -⟩ := mmioRequest_eq_some hq
    rw [Option.some.inj (hqvm.symm.trans hvm)] at hregion
    exact absurd htype (hr _ hregion)

end Access

section Codes
variable (h1 h2 : Hyp P) (fault : HvStage2FaultInfo)

/-- Which registers there are does not depend on what they hold. -/
theorem vuartStore_isSome (uart1 uart2 : HvVirtualUart) (offset value : BitVec 32) :
    (vuartStore uart1 offset value).isSome = (vuartStore uart2 offset value).isSome := by
  simp only [vuartStore, apply_ite Option.isSome]
  rfl

theorem vuartLoad_isSome (uart1 uart2 : HvVirtualUart) (hasData1 hasData2 : Bool)
    (offset : BitVec 32) :
    (vuartLoad uart1 hasData1 offset).isSome = (vuartLoad uart2 hasData2 offset).isSome := by
  simp only [vuartLoad, apply_ite Option.isSome]
  rfl

theorem hvVuartWrite_code (vmId : ℕ) (offset value size : BitVec 32) :
    (hvVuartWrite h1 vmId offset value size).1 = (hvVuartWrite h2 vmId offset value size).1 := by
  have hstore := vuartStore_isSome (h1.vuarts vmId) (h2.vuarts vmId) offset value
  rw [hvVuartWrite, hvVuartWrite]
  split
  · rfl
  · split
    · rfl
    · rcases hs1 : vuartStore (h1.vuarts vmId) offset value
        <;> rcases hs2 : vuartStore (h2.vuarts vmId) offset value
        <;> rw [hs1, hs2] at hstore
        <;> first | rfl | cases hstore

theorem hvVuartRead_code (vmId : ℕ) (offset size value : BitVec 32) :
    (hvVuartRead h1 vmId offset size value).1 = (hvVuartRead h2 vmId offset size value).1 := by
  have hload := vuartLoad_isSome (h1.vuarts vmId) (h2.vuarts vmId) (uartHasData h1)
    (uartHasData h2) offset
  rw [hvVuartRead, hvVuartRead]
  split
  · rfl
  · split
    · rfl
    · rcases hl1 : vuartLoad (h1.vuarts vmId) (uartHasData h1) offset
        <;> rcases hl2 : vuartLoad (h2.vuarts vmId) (uartHasData h2) offset
        <;> rw [hl1, hl2] at hload
        <;> first | rfl | cases hload

theorem hvVirtualDeviceAccess_code (vmId : ℕ) (region : HvVmRegion)
    (size value readValue : BitVec 32) :
    (hvVirtualDeviceAccess h1 vmId region fault size value readValue).1 =
      (hvVirtualDeviceAccess h2 vmId region fault size value readValue).1 := by
  rw [hvVirtualDeviceAccess, hvVirtualDeviceAccess]
  split
  · rfl
  · dsimp only
    split
    · rfl
    · split
      · split
        · exact hvVuartWrite_code ..
        · exact hvVuartRead_code ..
      · rfl

/-- Whether a load can be finished depends on its register only. -/
theorem mmioFinish_code (size reg v1 v2 : BitVec 32) :
    (mmioFinish h1 fault size reg v1).1 = (mmioFinish h2 fault size reg v2).1 := by
  rw [mmioFinish, mmioFinish]
  split
  · rfl
  · dsimp only
    rw [mmioWriteGuestReg, mmioWriteGuestReg]
    by_cases hlt : reg.toNat < 13
    · rw [dif_pos hlt, dif_pos hlt]
    · rw [dif_neg hlt, dif_neg hlt]
      by_cases hlr : reg = 14
      · rw [if_pos hlr, if_pos hlr]
      · rw [if_neg hlr, if_neg hlr]

/-- Whether an access is served depends on what it asks for, not on the state of the devices. -/
theorem hvMmioHandleFault_code {h1 h2 : Hyp P} {vcpu : VcpuIdx P}
    (hreq : mmioRequest h1 vcpu fault = mmioRequest h2 vcpu fault)
    (hid : ∀ i, (h1.scheduler.vm i).id = (h2.scheduler.vm i).id) :
    (hvMmioHandleFault h1 vcpu fault).1 = (hvMmioHandleFault h2 vcpu fault).1 := by
  have hcode (q : MmioRequest P) : (q.access h1 fault).1 = (q.access h2 fault).1 := by
    rw [MmioRequest.access, MmioRequest.access, hid]
    exact hvVirtualDeviceAccess_code h1 h2 fault _ _ _ _ _
  rcases hvMmioHandleFault_cases h1 vcpu fault with ⟨u1, he1, hno1⟩ | ⟨q1, hq1, hok1, he1⟩ <;>
    rcases hvMmioHandleFault_cases h2 vcpu fault with ⟨u2, he2, hno2⟩ | ⟨q2, hq2, hok2, he2⟩
  · rw [he1, he2]
  · exact absurd ((hcode q2).trans hok2) (hno1 q2 (hreq.trans hq2))
  · exact absurd ((hcode q1).symm.trans hok1) (hno2 q1 (hreq.symm.trans hq1))
  · rw [hreq, hq2] at hq1
    cases hq1
    rw [he1, he2]
    exact mmioFinish_code _ _ fault _ _ _ _

end Codes

theorem hvMmioHandleFault_uart (h : Hyp P) (uart : Uart) (fault : HvStage2FaultInfo)
    (vcpu : VcpuIdx P) : (hvMmioHandleFault { h with uart := uart } vcpu fault).1 =
      (hvMmioHandleFault h vcpu fault).1 :=
  hvMmioHandleFault_code fault rfl fun _ => rfl

end PiPervisor.Hv
