import PiPervisor.Hv.MmioSpec
import PiPervisor.Hv.Runs

/-! # Virtual UART registers are private storage

However the vCPUs of several VMs mix their accesses, a register of the virtual UART
reads back what the same VM last stored to it, reduced to the size of the access.
-/
namespace PiPervisor.Hv
open Stage2

variable {P : Platform}

section Registers

/-- The registers that keep what is stored to them. -/
inductive VuartRegister where
  | auxEnables
  | ier
  | iir
  | lcr
  | mcr
  | scratch
  | cntl
  | stat
  | baud
  deriving DecidableEq

namespace VuartRegister
variable (g g' : VuartRegister) (uart : HvVirtualUart) (value : BitVec 32)

def offset : VuartRegister → BitVec 32
  | auxEnables => hvGuestAuxEnables
  | ier => hvGuestAuxMuIerReg
  | iir => hvGuestAuxMuIirReg
  | lcr => hvGuestAuxMuLcrReg
  | mcr => hvGuestAuxMuMcrReg
  | scratch => hvGuestAuxMuScratch
  | cntl => hvGuestAuxMuCntlReg
  | stat => hvGuestAuxMuStatReg
  | baud => hvGuestAuxMuBaudReg

def get (uart : HvVirtualUart) : VuartRegister → BitVec 32
  | auxEnables => uart.auxEnables
  | ier => uart.ier
  | iir => uart.iir
  | lcr => uart.lcr
  | mcr => uart.mcr
  | scratch => uart.scratch
  | cntl => uart.cntl
  | stat => uart.stat
  | baud => uart.baud

def set (uart : HvVirtualUart) (value : BitVec 32) : VuartRegister → HvVirtualUart
  | auxEnables => { uart with auxEnables := value }
  | ier => { uart with ier := value }
  | iir => { uart with iir := value }
  | lcr => { uart with lcr := value }
  | mcr => { uart with mcr := value }
  | scratch => { uart with scratch := value }
  | cntl => { uart with cntl := value }
  | stat => { uart with stat := value }
  | baud => { uart with baud := value }

/-- What the register keeps of a value. -/
def kept (value : BitVec 32) : VuartRegister → BitVec 32
  | auxEnables => value &&& 1
  | _ => value

/-- What a load shows of what is kept. -/
def shown (value : BitVec 32) : VuartRegister → BitVec 32
  | stat => value ||| vuartStatTxCanAccept
  | _ => value

theorem get_set : g.get (g'.set uart value) = if g = g' then value else g.get uart := by
  cases g <;> cases g' <;> rfl

theorem offset_injective : Function.Injective offset := by
  intro g g' h
  cases g <;> cases g' <;> first | rfl | exact absurd h (by decide)

theorem offset_ne_io : g.offset ≠ hvGuestAuxMuIoReg := by cases g <;> decide

theorem vuartStore_offset :
    vuartStore uart g.offset value = some (g.set uart (g.kept value)) := by
  cases g <;> rfl

theorem vuartLoad_offset (hasData : Bool) :
    vuartLoad uart hasData g.offset = some (g.shown (g.get uart)) := by
  cases g <;> rfl

/-- A store of the UART is a store to one of these registers. -/
theorem exists_offset_of_vuartStore {uart' : HvVirtualUart} {o : BitVec 32}
    (hs : vuartStore uart o value = some uart') : ∃ g : VuartRegister, g.offset = o := by
  rw [vuartStore] at hs
  split_ifs at hs with h1 h2 h3 h4 h5 h6 h7 h8 h9
  exacts [⟨auxEnables, h1.symm⟩, ⟨ier, h2.symm⟩, ⟨iir, h3.symm⟩, ⟨lcr, h4.symm⟩, ⟨mcr, h5.symm⟩,
    ⟨scratch, h6.symm⟩, ⟨cntl, h7.symm⟩, ⟨stat, h8.symm⟩, ⟨baud, h9.symm⟩]

theorem get_of_vuartStore {uart' : HvVirtualUart} {o : BitVec 32}
    (hs : vuartStore uart o value = some uart') :
    g.get uart' = if g.offset = o then g.kept value else g.get uart := by
  obtain ⟨g', rfl⟩ := exists_offset_of_vuartStore uart value hs
  rw [vuartStore_offset] at hs
  rw [← Option.some.inj hs, get_set]
  by_cases hg : g = g'
  · rw [if_pos hg, if_pos (congrArg offset hg), hg]
  · rw [if_neg hg, if_neg fun he => hg (offset_injective he)]

end VuartRegister

end Registers

section Accesses

/-- A trapped load or store, with the machine it is taken in up to the virtual UARTs, which are
those that the accesses before it left. -/
structure MmioAccess (P : Platform) where
  machine : Hyp P
  vcpu : VcpuIdx P
  fault : HvStage2FaultInfo

namespace MmioAccess
variable (a : MmioAccess P) (vuarts : ℕ → HvVirtualUart) (i : VmIdx P) (o : BitVec 32)

/-- The machine in which the access traps. -/
def trapped : Hyp P := { a.machine with vuarts := vuarts }

def handle : ℤ × Hyp P := hvMmioHandleFault (a.trapped vuarts) a.vcpu a.fault

def vm : Option (VmIdx P) := (a.machine.vcpu a.vcpu).vm

def size : BitVec 32 := mmioAccessSize a.fault.iss

def reg : BitVec 32 := mmioAccessReg a.fault.iss

/-- The register of the virtual UART that the access addresses. -/
def offset : Option (BitVec 32) :=
  a.vm.bind fun i => (hvVmFindRegion (a.machine.scheduler.vm i) a.fault.ipa).bind fun region =>
    if region.type = .mmio ∧ region.device = .vuart then some (regionOffset region a.fault)
    else none

/-- The value of a store, zero-extended from its size. -/
def value : BitVec 32 :=
  mmioMaskValue ((mmioReadGuestReg a.machine.frame a.reg).getD 0) a.size false

/-- A successful store of VM `i` to offset `o`. -/
def Stores : Prop := a.fault.isWrite = true ∧ (a.handle vuarts).1 = hvMmioOk ∧ a.vm = some i ∧
  a.offset = some o

/-- A successful load of VM `i` from offset `o`. -/
def Loads : Prop := a.fault.isWrite = false ∧ (a.handle vuarts).1 = hvMmioOk ∧ a.vm = some i ∧
  a.offset = some o

instance : Decidable (a.Stores vuarts i o) := inferInstanceAs (Decidable (_ ∧ _))

instance : Decidable (a.Loads vuarts i o) := inferInstanceAs (Decidable (_ ∧ _))

end MmioAccess

theorem mmioReadGuestReg_write {frame frame' : HypExceptState} {reg v : BitVec 32}
    (h : mmioWriteGuestReg frame reg v = some frame') : mmioReadGuestReg frame' reg = some v := by
  rw [mmioWriteGuestReg] at h
  rw [mmioReadGuestReg]
  by_cases hlt : reg.toNat < 13
  · rw [dif_pos hlt] at h ⊢
    rw [← Option.some.inj h]
    exact congrArg some (Function.update_self ..)
  · rw [dif_neg hlt] at h ⊢
    by_cases hlr : reg = 14
    · rw [if_pos hlr] at h ⊢
      rw [← Option.some.inj h]
    · rw [if_neg hlr] at h
      cases h

variable {a : MmioAccess P} {vuarts : ℕ → HvVirtualUart} {i : VmIdx P}

/-- An access that succeeds is the request of a VM to its virtual UART. -/
theorem MmioAccess.request_of_ok (hok : (a.handle vuarts).1 = hvMmioOk) :
    ∃ q : MmioRequest P, mmioRequest (a.trapped vuarts) a.vcpu a.fault = some q ∧
      a.vm = some q.vm ∧ a.offset = some (regionOffset q.region a.fault) ∧
      q.size = a.size ∧ q.reg = a.reg ∧ q.region.device = .vuart ∧
      (q.access (a.trapped vuarts) a.fault).1 = hvMmioOk ∧
      a.handle vuarts = mmioFinish (q.access (a.trapped vuarts) a.fault).2.2 a.fault q.size q.reg
        (q.access (a.trapped vuarts) a.fault).2.1 := by
  rcases hvMmioHandleFault_cases (a.trapped vuarts) a.vcpu a.fault with
    ⟨uart, hno, -⟩ | ⟨q, hq, hserved, heq⟩
  · rw [handle, hno] at hok
    exact absurd hok hvMmioErrUnhandled_ne
  · obtain ⟨hvm, hdecode, hregion, htype, -⟩ := mmioRequest_eq_some hq
    have hvm' : a.vm = some q.vm := hvm
    have hregion' : hvVmFindRegion (a.machine.scheduler.vm q.vm) a.fault.ipa = some q.region :=
      hregion
    obtain ⟨-, hsize, -, hreg⟩ := mmioDecodeAccess_eq_some hdecode
    have hdevice := (hvVirtualDeviceAccess_ok hserved).1
    refine ⟨q, hq, hvm', ?_, hsize, hreg, hdevice, hserved, heq⟩
    rw [offset, hvm', Option.bind_some, hregion', Option.bind_some, if_pos ⟨htype, hdevice⟩]

/-- Only a store that is carried out writes to the register files. -/
theorem MmioAccess.handle_vuarts
    (hno : ¬ (a.fault.isWrite = true ∧ (a.handle vuarts).1 = hvMmioOk)) :
    (a.handle vuarts).2.vuarts = vuarts := by
  rcases hvMmioHandleFault_cases (a.trapped vuarts) a.vcpu a.fault with
    ⟨uart, heq, -⟩ | ⟨q, hq, hserved, heq⟩
  · rw [handle, heq]
    rfl
  · rw [handle, heq] at hno ⊢
    have haccess := (hvVirtualDeviceAccess_ok hserved).2
    rw [mmioFinish] at hno ⊢
    by_cases hw : a.fault.isWrite = true
    · rw [if_pos hw] at hno
      exact absurd ⟨hw, rfl⟩ hno
    · have hread : (q.access (a.trapped vuarts) a.fault).2.2.vuarts = vuarts := by
        rw [if_neg hw] at haccess
        rw [MmioRequest.access, haccess] at hserved ⊢
        rcases hvVuartRead_ok hserved with ⟨-, hget⟩ | ⟨-, v, -, hget⟩
        · rw [hget, uartGet8Async]
          split <;> rfl
        · rw [hget]
          rfl
      rw [if_neg hw]
      dsimp only
      split <;> exact hread

/-- Such a store writes what it addresses in the register file of its own VM. -/
theorem MmioAccess.handle_store (hw : a.fault.isWrite = true)
    (hok : (a.handle vuarts).1 = hvMmioOk) : ∃ j o, a.vm = some j ∧ a.offset = some o ∧
      (o = hvGuestAuxMuIoReg ∧ (a.handle vuarts).2.vuarts = vuarts ∨
        ∃ uart, vuartStore (vuarts (a.machine.scheduler.vm j).id) o a.value = some uart ∧
          (a.handle vuarts).2.vuarts =
            Function.update vuarts (a.machine.scheduler.vm j).id uart) := by
  obtain ⟨q, hq, hvm, hoffset, hsize, hreg, -, hserved, heq⟩ := request_of_ok hok
  obtain ⟨-, -, -, -, hvalue⟩ := mmioRequest_eq_some hq
  have hq_value : q.value = a.value := by
    rw [mmioWriteValue, if_pos hw] at hvalue
    obtain ⟨v, hv, hmask⟩ := Option.map_eq_some_iff.mp hvalue
    have hv' : mmioReadGuestReg a.machine.frame q.reg = some v := hv
    rw [value, ← hreg, ← hsize, hv', Option.getD_some, hmask]
  refine ⟨q.vm, _, hvm, hoffset, ?_⟩
  have haccess := (hvVirtualDeviceAccess_ok hserved).2
  rw [if_pos hw] at haccess
  rw [heq, mmioFinish, if_pos hw]
  rw [MmioRequest.access, haccess] at hserved ⊢
  dsimp only at hserved ⊢
  rcases hvVuartWrite_ok hserved with ⟨hio, hwrite⟩ | ⟨-, uart, hstore, hwrite⟩
  · refine .inl ⟨hio, ?_⟩
    rw [hwrite]
    rfl
  · rw [hq_value] at hstore
    refine .inr ⟨uart, hstore, ?_⟩
    rw [hwrite]
    rfl

/-- The load puts the register into its destination. -/
theorem MmioAccess.handle_load {g : VuartRegister} (hl : a.Loads vuarts i g.offset) :
    mmioReadGuestReg (a.handle vuarts).2.frame a.reg = some (mmioMaskValue
      (g.shown (g.get (vuarts (a.machine.scheduler.vm i).id))) a.size
      (a.fault.iss &&& hsrIssAbortSse != 0)) := by
  obtain ⟨hr, hok, hvm, hoffset⟩ := hl
  obtain ⟨q, hq, hvm', hoffset', hsize, hreg, -, hserved, heq⟩ := request_of_ok hok
  obtain rfl : q.vm = i := Option.some.inj (hvm'.symm.trans hvm)
  have hregister : regionOffset q.region a.fault = g.offset :=
    Option.some.inj (hoffset'.symm.trans hoffset)
  have hw : ¬ a.fault.isWrite = true := by
    rw [hr]
    exact Bool.false_ne_true
  have haccess := (hvVirtualDeviceAccess_ok hserved).2
  rw [if_neg hw, hregister] at haccess
  rw [MmioRequest.access, haccess] at hserved
  rcases hvVuartRead_ok hserved with ⟨hio, -⟩ | ⟨-, v, hload, hread⟩
  · exact absurd hio g.offset_ne_io
  · rw [g.vuartLoad_offset] at hload
    have hv := Option.some.inj hload
    rw [heq, mmioFinish, if_neg hw] at hok ⊢
    rw [MmioRequest.access, haccess, hread, ← hv] at hok ⊢
    dsimp only at hok ⊢
    rcases hf : mmioWriteGuestReg (a.trapped vuarts).frame q.reg (mmioMaskValue
        (g.shown (g.get ((a.trapped vuarts).vuarts ((a.trapped vuarts).scheduler.vm q.vm).id)))
        q.size (a.fault.iss &&& hsrIssAbortSse != 0)) with - | frame
    · rw [hf] at hok
      exact absurd hok hvMmioErrUnhandled_ne
    · rw [← hreg, ← hsize]
      exact mmioReadGuestReg_write hf

end Accesses

section Histories

/-- The register files after a sequence of accesses, with the value that each VM has last stored
to each offset. -/
structure VuartHistory (P : Platform) where
  vuarts : ℕ → HvVirtualUart
  stored : VmIdx P → BitVec 32 → BitVec 32

/-- Nothing has been stored. -/
def VuartHistory.initial : VuartHistory P where
  vuarts := fun _ => ⟨0, 0, 0, 0, 0, 0, 0, 0, 0, 0⟩
  stored := fun _ _ => 0

def VuartHistory.step (s : VuartHistory P) (a : MmioAccess P) : VuartHistory P where
  vuarts := (a.handle s.vuarts).2.vuarts
  stored := fun i o => if a.Stores s.vuarts i o then a.value else s.stored i o

variable {ids : VmIdx P → ℕ} {a : MmioAccess P} {vuarts : ℕ → HvVirtualUart}

/-- What an access leaves in the register files of the VMs. -/
theorem MmioAccess.handle_get (hids : Function.Injective ids)
    (hvm : ∀ j, a.vm = some j → (a.machine.scheduler.vm j).id = ids j) (i : VmIdx P)
    (g : VuartRegister) : g.get ((a.handle vuarts).2.vuarts (ids i)) =
      if a.Stores vuarts i g.offset then g.kept a.value else g.get (vuarts (ids i)) := by
  by_cases hs : a.fault.isWrite = true ∧ (a.handle vuarts).1 = hvMmioOk
  · obtain ⟨j, o, hj, ho, hstore⟩ := handle_store hs.1 hs.2
    have hiff : a.Stores vuarts i g.offset ↔ i = j ∧ g.offset = o := by
      refine ⟨fun h => ⟨Option.some.inj (h.2.2.1.symm.trans hj),
        Option.some.inj (h.2.2.2.symm.trans ho)⟩, ?_⟩
      rintro ⟨rfl, rfl⟩
      exact ⟨hs.1, hs.2, hj, ho⟩
    rw [hvm j hj] at hstore
    rcases hstore with ⟨rfl, heq⟩ | ⟨uart, huart, heq⟩
    · rw [heq, if_neg fun h => g.offset_ne_io (hiff.mp h).2]
    · rw [heq, Function.update_apply]
      by_cases hij : i = j
      · rw [if_pos (congrArg ids hij), g.get_of_vuartStore _ _ huart, ← hij]
        exact if_congr ⟨fun h => hiff.mpr ⟨hij, h⟩, fun h => (hiff.mp h).2⟩ rfl rfl
      · rw [if_neg fun h => hij (hids h), if_neg fun h => hij (hiff.mp h).1]
  · rw [handle_vuarts hs, if_neg fun h => hs ⟨h.1, h.2.1⟩]

/-- Every register holds what its VM has last stored to it. -/
def VuartHistory.Faithful (ids : VmIdx P → ℕ) (s : VuartHistory P) : Prop :=
  ∀ i (g : VuartRegister), g.get (s.vuarts (ids i)) = g.kept (s.stored i g.offset)

theorem VuartHistory.initial_faithful : (initial : VuartHistory P).Faithful ids := by
  intro i g
  have hzero (g : VuartRegister) : g.get ⟨0, 0, 0, 0, 0, 0, 0, 0, 0, 0⟩ = g.kept 0 := by
    cases g <;> decide
  exact hzero g

theorem VuartHistory.Faithful.step {s : VuartHistory P} (hs : s.Faithful ids)
    (hids : Function.Injective ids)
    (hvm : ∀ j, a.vm = some j → (a.machine.scheduler.vm j).id = ids j) :
    (s.step a).Faithful ids := by
  intro i g
  change g.get ((a.handle s.vuarts).2.vuarts (ids i)) =
    g.kept (if a.Stores s.vuarts i g.offset then a.value else s.stored i g.offset)
  rw [MmioAccess.handle_get hids hvm, hs i g]
  split <;> rfl

theorem VuartHistory.faithful_of_accesses (hids : Function.Injective ids) (as : List (MmioAccess P))
    (hvm : ∀ a ∈ as, ∀ j, a.vm = some j → (a.machine.scheduler.vm j).id = ids j)
    {s : VuartHistory P} (hs : s.Faithful ids) : (as.foldl step s).Faithful ids := by
  induction as generalizing s with
  | nil => exact hs
  | cons a as ih =>
    apply ih (fun a' ha' => hvm a' (List.mem_cons_of_mem a ha'))
    exact hs.step hids (hvm a List.mem_cons_self)

/-- A guest reads from a register of its UART what it last stored there itself, and only its own
stores change the register. -/
theorem vuart_private_storage (ids : VmIdx P → ℕ) (hids : Function.Injective ids)
    (before : List (MmioAccess P)) (a : MmioAccess P) (i : VmIdx P) (g : VuartRegister)
    (hvm : ∀ a' ∈ a :: before, ∀ j, a'.vm = some j → (a'.machine.scheduler.vm j).id = ids j) :
    let s := before.foldl VuartHistory.step VuartHistory.initial
    (a.Loads s.vuarts i g.offset →
      mmioReadGuestReg (a.handle s.vuarts).2.frame a.reg = some (mmioMaskValue
        (g.shown (g.kept (s.stored i g.offset))) a.size (a.fault.iss &&& hsrIssAbortSse != 0))) ∧
    (¬ a.Stores s.vuarts i g.offset →
      g.get ((a.handle s.vuarts).2.vuarts (ids i)) = g.get (s.vuarts (ids i))) := by
  intro s
  have hlast := hvm a List.mem_cons_self
  have hs : s.Faithful ids := VuartHistory.faithful_of_accesses hids before
    (fun a' ha' => hvm a' (List.mem_cons_of_mem a ha')) VuartHistory.initial_faithful
  refine ⟨fun hl => ?_, fun hno => ?_⟩
  · rw [MmioAccess.handle_load hl, hlast i hl.2.2.1, hs i g]
  · rw [MmioAccess.handle_get hids hlast, if_neg hno]

/-- A signed access to a register of the virtual UART, from or to guest register 3. -/
def uartAccess (h : Hyp Platform.twoSlots) (vcpu : VcpuIdx Platform.twoSlots) (isWrite : Bool)
    (offset sas value : BitVec 32) : MmioAccess Platform.twoSlots where
  machine := { h with frame := { h.frame with r := Function.update h.frame.r 3 value } }
  vcpu := vcpu
  fault :=
    { vcpuId := 0
      vmId := 0
      ec := hsrEcDataAbortLower
      iss := hsrIssAbortIsv ||| hsrIssAbortSse ||| sas <<< 22 ||| 3 <<< 16
      status := 0
      level := 0
      ipa := (hvGuestUartBase + offset).setWidth 64
      access := if isWrite then .write else .read
      isWrite := isWrite
      isInstruction := false
      ipaOffsetValid := true }

/-- The first guest stores a byte, the second stores a word to its own register, and the first
loads its byte. -/
theorem vuart_private_storage_byte : ∃ r, (twoGuests 0).run [] = some r ∧
    let s := [uartAccess r.hyp 0 true hvGuestAuxMuScratch 0 0x1280,
      uartAccess r.hyp 1 true hvGuestAuxMuScratch 2 7].foldl VuartHistory.step .initial
    s.stored (firstVm _) hvGuestAuxMuScratch = 0x80 ∧
      mmioReadGuestReg ((uartAccess r.hyp 0 false hvGuestAuxMuScratch 0 0).handle s.vuarts).2.frame 3 =
        some 0xffffff80 := by
  have heval : ((twoGuests 0).run []).map (fun r =>
      let before := [uartAccess r.hyp 0 true hvGuestAuxMuScratch 0 0x1280,
        uartAccess r.hyp 1 true hvGuestAuxMuScratch 2 7]
      let a := uartAccess r.hyp 0 false hvGuestAuxMuScratch 0 0
      let s := before.foldl VuartHistory.step .initial
      decide (a.Loads s.vuarts (firstVm _) VuartRegister.scratch.offset ∧
        s.stored (firstVm _) hvGuestAuxMuScratch = 0x80 ∧
        ∀ a' ∈ a :: before, ∀ j, a'.vm = some j → (a'.machine.scheduler.vm j).id = j.val)) =
      some true := by
    decide +kernel
  obtain ⟨r, hr, he⟩ := Option.map_eq_some_iff.mp heval
  obtain ⟨hl, hstored, hvm⟩ := of_decide_eq_true he
  refine ⟨r, hr, hstored, ?_⟩
  have hload := (vuart_private_storage Fin.val Fin.val_injective _ _ _ .scratch hvm).1 hl
  have hkept : VuartRegister.scratch.kept (([uartAccess r.hyp 0 true hvGuestAuxMuScratch 0 0x1280,
      uartAccess r.hyp 1 true hvGuestAuxMuScratch 2 7].foldl VuartHistory.step .initial).stored
        (firstVm _) VuartRegister.scratch.offset) = 0x80 := hstored
  have hreg : (uartAccess r.hyp 0 false hvGuestAuxMuScratch 0 0).reg = 3 := by
    change mmioAccessReg (hsrIssAbortIsv ||| hsrIssAbortSse ||| 0 <<< 22 ||| 3 <<< 16) = 3
    decide
  have hmask : mmioMaskValue 0x80 (mmioAccessSize
      (hsrIssAbortIsv ||| hsrIssAbortSse ||| 0 <<< 22 ||| 3 <<< 16))
      ((hsrIssAbortIsv ||| hsrIssAbortSse ||| 0 <<< 22 ||| 3 <<< 16) &&& hsrIssAbortSse != 0) =
        0xffffff80 := by
    decide
  rw [hkept, hreg] at hload
  exact hload.trans (congrArg some hmask)

end Histories

end PiPervisor.Hv
