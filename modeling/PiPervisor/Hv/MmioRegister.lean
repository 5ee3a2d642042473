import PiPervisor.Library.BitField
import PiPervisor.Hv.MmioRefusal
import PiPervisor.Hv.HandlerSpec

/-! # The register that an access names

An instruction names a register of the mode it is executed in. The trap frame holds the
registers that all modes share, and the LR of the user mode; the SP and LR of the other
modes are banked. So the frame has the named register, unless that is a banked LR.
-/
namespace PiPervisor.Hv
open Stage2 Library.BitField

variable {P : Platform} {h : Hyp P} {vcpu : VcpuIdx P} {fault : HvStage2FaultInfo}

section Registers

/-- The modes that guests execute in. -/
inductive GuestMode where
  | usr
  | sys
  | svc
  | irq
  deriving DecidableEq

/-- The registers of a guest, in all of these modes. -/
inductive GuestReg where
  | r (k : Fin 13)
  | spUsr
  | lrUsr
  | spSvc
  | lrSvc
  | spsrSvc
  | spIrq
  | lrIrq
  | spsrIrq
  | pc
  | cpsr
  deriving DecidableEq

/-- The mode in the program status that was saved when the guest trapped. -/
def guestMode (spsrHyp : BitVec 32) : Option GuestMode :=
  let mode := spsrHyp &&& 0x1f
  if mode = 0x10 then some .usr
  else if mode = 0x1f then some .sys
  else if mode = 0x13 then some .svc
  else if mode = 0x12 then some .irq
  else none

/-- The registers after a trap: Hyp mode has no LR of its own and saves that of the user mode. -/
def Core.guestReg (m : Core P) : GuestReg → BitVec 32
  | .r k => m.frame.r k
  | .spUsr => m.cpu.banked.spUsr
  | .lrUsr => m.frame.lr
  | .spSvc => m.cpu.banked.spSvc
  | .lrSvc => m.cpu.banked.lrSvc
  | .spsrSvc => m.cpu.banked.spsrSvc
  | .spIrq => m.cpu.banked.spIrq
  | .lrIrq => m.cpu.banked.lrIrq
  | .spsrIrq => m.cpu.banked.spsrIrq
  | .pc => m.frame.elrHyp
  | .cpsr => m.frame.spsrHyp

namespace GuestMode

/-- The stack pointer of a mode; the system mode uses that of the user mode. -/
def sp : GuestMode → GuestReg
  | usr | sys => .spUsr
  | svc => .spSvc
  | irq => .spIrq

/-- The link register of a mode; the system mode uses that of the user mode. -/
def lr : GuestMode → GuestReg
  | usr | sys => .lrUsr
  | svc => .lrSvc
  | irq => .lrIrq

/-- The register that a number names in a mode; no access to a device names the PC. -/
def reg (mode : GuestMode) (srt : BitVec 32) : Option GuestReg :=
  if h : srt.toNat < 13 then some (.r ⟨srt.toNat, h⟩)
  else if srt = 13 then some mode.sp
  else if srt = 14 then some mode.lr
  else none

end GuestMode

/-- The register that the handlers use for a number. -/
def frameReg (srt : BitVec 32) : Option GuestReg :=
  if h : srt.toNat < 13 then some (.r ⟨srt.toNat, h⟩)
  else if srt = 14 then some .lrUsr
  else none

theorem mmioReadGuestReg_eq (m : Core P) (srt : BitVec 32) :
    mmioReadGuestReg m.frame srt = (frameReg srt).map m.guestReg := by
  rw [mmioReadGuestReg, frameReg]
  by_cases hlt : srt.toNat < 13
  · rw [dif_pos hlt, dif_pos hlt]
    rfl
  · rw [dif_neg hlt, dif_neg hlt]
    split <;> rfl

theorem guestReg_mmioWriteGuestReg {m : Core P} {srt value : BitVec 32} {frame : HypExceptState}
    (hw : mmioWriteGuestReg m.frame srt value = some frame) :
    ∃ g, frameReg srt = some g ∧
      (m.setFrame frame).guestReg = Function.update m.guestReg g value := by
  rw [mmioWriteGuestReg] at hw
  rw [frameReg]
  by_cases hlt : srt.toNat < 13
  · rw [dif_pos hlt] at hw ⊢
    cases hw
    refine ⟨_, rfl, ?_⟩
    funext g
    rw [Function.update_apply]
    cases g with
    | r k =>
      change Function.update m.frame.r _ value k = _
      simp only [Function.update_apply, GuestReg.r.injEq]
      rfl
    | _ => rfl
  · rw [dif_neg hlt] at hw ⊢
    by_cases hlr : srt = 14
    · rw [if_pos hlr] at hw ⊢
      cases hw
      refine ⟨_, rfl, ?_⟩
      funext g
      rw [Function.update_apply]
      cases g <;> rfl
    · rw [if_neg hlr] at hw
      cases hw

/-- The handlers find the named register, but for the LR of a mode that has its own. -/
theorem GuestMode.reg_of_ne {srt : BitVec 32} (mode : GuestMode) (hlr : srt ≠ 14) {g : GuestReg}
    (hg : frameReg srt = some g) : mode.reg srt = some g := by
  rw [frameReg, if_neg hlr] at hg
  rw [GuestMode.reg]
  split at hg
  · rename_i hlt
    rw [dif_pos hlt]
    exact hg
  · cases hg

theorem GuestMode.reg_lr (mode : GuestMode) : mode.reg 14 = some mode.lr := rfl

theorem GuestMode.lr_eq_iff (mode : GuestMode) : mode.lr = .lrUsr ↔ mode = .usr ∨ mode = .sys := by
  cases mode <;> simp [GuestMode.lr]

end Registers

section Values

/-- The low bytes of a value. -/
def lowBytes (size value : BitVec 32) : BitVec 32 :=
  (value.setWidth (8 * size.toNat)).setWidth 32

/-- The low bytes of a value, extended to a word. -/
def extendBytes (size : BitVec 32) (signed : Bool) (value : BitVec 32) : BitVec 32 :=
  if signed then (value.setWidth (8 * size.toNat)).signExtend 32 else lowBytes size value

theorem mmioAccessSize_of_ne_zero {iss : BitVec 32} (hs : mmioAccessSize iss ≠ 0) :
    mmioAccessSize iss = 1 ∨ mmioAccessSize iss = 2 ∨ mmioAccessSize iss = 4 := by
  rw [mmioAccessSize] at hs ⊢
  split_ifs at hs ⊢ <;> simp at hs ⊢

theorem mmioMaskValue_eq {size : BitVec 32} (hs : size = 1 ∨ size = 2 ∨ size = 4)
    (value : BitVec 32) (signed : Bool) :
    mmioMaskValue value size signed = extendBytes size signed value := by
  have hbyte : IsField (0xff : BitVec 32) 0 8 := isField_of_forall_lt (by decide) (by decide)
  have habove : IsField (0xffffff00 : BitVec 32) 8 32 := isField_of_forall_lt le_rfl (by decide)
  have hhalf : IsField (0xffff : BitVec 32) 0 16 := isField_of_forall_lt (by decide) (by decide)
  have habove' : IsField (0xffff0000 : BitVec 32) 16 32 := isField_of_forall_lt le_rfl (by decide)
  rw [mmioMaskValue, extendBytes, lowBytes]
  rcases hs with rfl | rfl | rfl <;> cases signed
  · exact and_low_eq_setWidth value hbyte
  · exact (if_congr (and_iff_right rfl) rfl rfl).trans
      (or_high_eq_signExtend value (by decide) (by decide) hbyte habove)
  · exact and_low_eq_setWidth value hhalf
  · exact (if_congr (and_iff_right rfl) rfl rfl).trans
      (or_high_eq_signExtend value (by decide) (by decide) hhalf habove')
  · exact (BitVec.setWidth_eq value).symm
  · exact (BitVec.signExtend_eq value).symm

end Values

section Accesses

/-- The device at the address of an access, when it is given a value. -/
def giveDevice (h : Hyp P) (vcpu : VcpuIdx P) (fault : HvStage2FaultInfo) (value : BitVec 32) :
    Option (ℤ × BitVec 32 × Hyp P) :=
  (h.vcpu vcpu).vm.bind fun vm =>
    (hvVmFindRegion (h.scheduler.vm vm) fault.ipa).map fun region =>
      hvVirtualDeviceAccess h (h.scheduler.vm vm).id region fault (mmioAccessSize fault.iss) value 0

/-- What the device answers to a load. -/
def deviceValue (h : Hyp P) (vcpu : VcpuIdx P) (fault : HvStage2FaultInfo) : BitVec 32 :=
  match giveDevice h vcpu fault 0 with
  | none => 0
  | some (_, value, _) => value

/-- The value that a load leaves in its register. -/
def loadedValue (h : Hyp P) (vcpu : VcpuIdx P) (fault : HvStage2FaultInfo) : BitVec 32 :=
  extendBytes (mmioAccessSize fault.iss) (fault.iss &&& hsrIssAbortSse != 0)
    (deviceValue h vcpu fault)

/-- The access reads or writes this register, and writes no other. A store hands the low bytes of
the register to the device, and leaves the state as the device leaves it. -/
def ActsOn (h : Hyp P) (vcpu : VcpuIdx P) (fault : HvStage2FaultInfo) (g : GuestReg) : Prop :=
  let h' := (hvMmioHandleFault h vcpu fault).2
  let size := mmioAccessSize fault.iss
  if fault.isWrite then
    mmioWriteValue h fault size (mmioAccessReg fault.iss) = some (lowBytes size (h.guestReg g)) ∧
      giveDevice h vcpu fault (lowBytes size (h.guestReg g)) = some (hvMmioOk, 0, h') ∧
      h'.guestReg = h.guestReg
  else h'.guestReg = Function.update h.guestReg g (loadedValue h vcpu fault)

/-- The access acts on the register that its instruction names in the mode of the guest. -/
def ActsOnNamed (h : Hyp P) (vcpu : VcpuIdx P) (fault : HvStage2FaultInfo) : Prop :=
  ∃ mode g, guestMode h.frame.spsrHyp = some mode ∧
    mode.reg (mmioAccessReg fault.iss) = some g ∧ ActsOn h vcpu fault g

theorem giveDevice_eq {q : MmioRequest P} (hq : mmioRequest h vcpu fault = some q) :
    giveDevice h vcpu fault q.value = some (q.access h fault) := by
  obtain ⟨hvm, hdecode, hregion, -⟩ := mmioRequest_eq_some hq
  obtain ⟨-, hsize, -⟩ := mmioDecodeAccess_eq_some hdecode
  rw [giveDevice, hvm, Option.bind_some, hregion, Option.map_some, ← hsize]
  rfl

/-- A store that is served comes back with nothing to read. -/
theorem access_of_isWrite {q : MmioRequest P} (hw : fault.isWrite = true)
    (hserved : (q.access h fault).1 = hvMmioOk) :
    q.access h fault = (hvMmioOk, 0, (q.access h fault).2.2) := by
  obtain ⟨-, he⟩ := hvVirtualDeviceAccess_ok hserved
  rw [if_pos hw] at he
  have hread : (q.access h fault).2.1 = 0 := congrArg (fun d => d.2.1) he
  rw [← hserved, ← hread]

/-- An access that is served acts on the register that the handlers use for its number. -/
theorem actsOn_frameReg (hok : (hvMmioHandleFault h vcpu fault).1 = hvMmioOk) :
    ∃ g, frameReg (mmioAccessReg fault.iss) = some g ∧ ActsOn h vcpu fault g := by
  rcases hvMmioHandleFault_cases h vcpu fault with ⟨uart, he, -⟩ | ⟨q, hq, hserved, he⟩
  · rw [he] at hok
    exact absurd hok hvMmioErrUnhandled_ne
  obtain ⟨-, hdecode, -, -, hvalue⟩ := mmioRequest_eq_some hq
  obtain ⟨-, hsize, hne, hreg⟩ := mmioDecodeAccess_eq_some hdecode
  have hmask (value : BitVec 32) (signed : Bool) :
      mmioMaskValue value q.size signed = extendBytes (mmioAccessSize fault.iss) signed value := by
    rw [hsize] at hne ⊢
    exact mmioMaskValue_eq (mmioAccessSize_of_ne_zero hne) value signed
  have hdevice := giveDevice_eq hq
  obtain ⟨uart, vuarts, hstate⟩ := hvVirtualDeviceAccess_touches h (h.scheduler.vm q.vm).id
    q.region fault q.size q.value 0
  have hframe : (q.access h fault).2.2.toCore = h.toCore := by rw [MmioRequest.access, hstate]
  rw [he, mmioFinish, hreg] at hok
  by_cases hw : fault.isWrite = true
  · have hgiven := hvalue
    rw [mmioWriteValue, hreg, if_pos hw, mmioReadGuestReg_eq, Option.map_map] at hvalue
    obtain ⟨g, hg, hv⟩ := Option.map_eq_some_iff.mp hvalue
    have hlow : q.value = lowBytes (mmioAccessSize fault.iss) (h.guestReg g) :=
      hv.symm.trans (hmask _ _)
    refine ⟨g, hg, ?_⟩
    rw [ActsOn, he, mmioFinish, if_pos hw, if_pos hw, ← hlow]
    refine ⟨?_, hdevice.trans (congrArg some (access_of_isWrite hw hserved)), ?_⟩
    · rw [← hsize, ← hreg]
      exact hgiven
    · rw [hframe]
  · rw [if_neg hw] at hok
    dsimp only at hok
    rcases hg : mmioWriteGuestReg (q.access h fault).2.2.frame (mmioAccessReg fault.iss)
      (mmioMaskValue (q.access h fault).2.1 q.size (fault.iss &&& hsrIssAbortSse != 0))
      with - | frame <;> rw [hg] at hok
    · exact absurd hok hvMmioErrUnhandled_ne
    · have hwritten := hg
      rw [hframe] at hwritten
      obtain ⟨g, hgreg, hregs⟩ := guestReg_mmioWriteGuestReg hwritten
      refine ⟨g, hgreg, ?_⟩
      have hzero : q.value = 0 := by
        rw [mmioWriteValue, if_neg hw] at hvalue
        exact (Option.some.inj hvalue).symm
      rw [hzero] at hdevice
      rw [ActsOn, he, mmioFinish, if_neg hw, if_neg hw, hreg]
      dsimp only
      rw [hg]
      dsimp only
      rw [loadedValue, deviceValue, hdevice, ← hmask, ← hregs, ← hframe]
      rfl

theorem actsOnNamed_iff {mode : GuestMode} (hmode : guestMode h.frame.spsrHyp = some mode) :
    ActsOnNamed h vcpu fault ↔
      ∃ g, mode.reg (mmioAccessReg fault.iss) = some g ∧ ActsOn h vcpu fault g := by
  simp only [ActsOnNamed, hmode, Option.some.injEq, ↓existsAndEq, true_and]

/-- The LR of the mode and that of the user mode do not differ in what the access is about. -/
def LrsAgree (h : Hyp P) (vcpu : VcpuIdx P) (fault : HvStage2FaultInfo) (mode : GuestMode) : Prop :=
  if fault.isWrite then
    lowBytes (mmioAccessSize fault.iss) (h.guestReg mode.lr) =
      lowBytes (mmioAccessSize fault.iss) h.frame.lr
  else h.guestReg mode.lr = loadedValue h vcpu fault ∧ h.frame.lr = loadedValue h vcpu fault

theorem update_eq_update_iff {α β : Type} [DecidableEq α] {f : α → β} {a b : α} (hne : a ≠ b)
    (v : β) : Function.update f a v = Function.update f b v ↔ f a = v ∧ f b = v := by
  constructor
  · intro he
    have ha := congrFun he a
    have hb := congrFun he b
    rw [Function.update_self, Function.update_of_ne hne] at ha
    rw [Function.update_self, Function.update_of_ne hne.symm] at hb
    exact ⟨ha.symm, hb⟩
  · rintro ⟨ha, hb⟩
    rw [← ha, Function.update_eq_self, ha, ← hb, Function.update_eq_self]

/-- Acting on LR_usr is acting on another LR exactly if the two agree. -/
theorem actsOn_lr_iff (hact : ActsOn h vcpu fault .lrUsr) {mode : GuestMode}
    (hlr : mode.lr ≠ .lrUsr) : ActsOn h vcpu fault mode.lr ↔ LrsAgree h vcpu fault mode := by
  rw [ActsOn] at hact ⊢
  rw [LrsAgree]
  by_cases hw : fault.isWrite = true
  · rw [if_pos hw] at hact ⊢
    rw [if_pos hw]
    constructor
    · intro he
      exact Option.some.inj (he.1.symm.trans hact.1)
    · intro he
      rw [he]
      exact hact
  · rw [if_neg hw] at hact ⊢
    rw [if_neg hw, hact, eq_comm]
    exact update_eq_update_iff hlr _

/-- A served access acts on the register that the syndrome names in the mode of the guest, unless it
names r14 in a mode with a link register of its own and it matters that the saved one is used. -/
theorem acts_on_named_iff (h : Hyp P) (vcpu : VcpuIdx P) (fault : HvStage2FaultInfo)
    (mode : GuestMode) (hmode : guestMode h.frame.spsrHyp = some mode)
    (hok : (hvMmioHandleFault h vcpu fault).1 = hvMmioOk) :
    ActsOnNamed h vcpu fault ↔ mmioAccessReg fault.iss ≠ 14 ∨ mode = .usr ∨ mode = .sys ∨
      LrsAgree h vcpu fault mode := by
  obtain ⟨g, hg, hact⟩ := actsOn_frameReg hok
  rw [actsOnNamed_iff hmode]
  by_cases hsrt : mmioAccessReg fault.iss = 14
  · rw [hsrt] at hg
    obtain rfl : GuestReg.lrUsr = g := Option.some.inj hg
    simp only [hsrt, mode.reg_lr, Option.some.injEq, ↓existsAndEq, true_and, ne_eq, not_true,
      false_or]
    rw [← or_assoc, ← mode.lr_eq_iff]
    by_cases hlr : mode.lr = .lrUsr
    · exact iff_of_true (hlr.symm ▸ hact) (.inl hlr)
    · rw [actsOn_lr_iff hact hlr, or_iff_right hlr]
  · exact iff_of_true ⟨g, mode.reg_of_ne hsrt hg, hact⟩ (.inl hsrt)

/-- A guest in SVC mode, with its own LR. -/
def svcGuest : Hyp Platform.twoSlots :=
  { consoleGuest with
    frame := { zeroHypState with spsrHyp := hypLowerSvcCpsr, lr := 5 }
    cpu := { consoleGuest.cpu with banked := { zeroBankedRegs with lrSvc := 7 } } }

/-- A load of a word from the scratch register, which holds 0. -/
def scratchLoad (srt : BitVec 32) : HvStage2FaultInfo :=
  uartLoad hvGuestAuxMuScratch (hsrIssAbortIsv ||| 2#32 <<< 22 ||| srt <<< 16)

theorem acts_on_named_iff_r3 : ActsOnNamed svcGuest 0 (scratchLoad 3) :=
  (acts_on_named_iff svcGuest 0 (scratchLoad 3) .svc (by decide) (by decide)).mpr
    (.inl (by decide))

/-- A load to the LR of a guest in SVC mode leaves that register as it is. -/
theorem load_misses_lr_svc : guestMode svcGuest.frame.spsrHyp = some .svc ∧
    (hvMmioHandleFault svcGuest 0 (scratchLoad 14)).1 = hvMmioOk ∧
    ¬ ActsOnNamed svcGuest 0 (scratchLoad 14) := by
  have hmode : guestMode svcGuest.frame.spsrHyp = some .svc := by decide
  refine ⟨hmode, by decide, ?_⟩
  rw [actsOnNamed_iff hmode]
  rintro ⟨g, hg, hact⟩
  obtain rfl : GuestReg.lrSvc = g := Option.some.inj (Eq.trans (by decide) hg)
  rw [ActsOn, if_neg (by decide)] at hact
  exact absurd (congrFun hact .lrSvc) (by decide)

end Accesses

end PiPervisor.Hv
