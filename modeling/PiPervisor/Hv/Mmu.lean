import PiPervisor.Hv.Closed
import PiPervisor.Hv.GuestIsolation
import PiPervisor.Hv.RunningVcpu
import PiPervisor.Stage2.Hardware

/-! # The MMU as the hypervisor programs it

The control registers that the hypervisor writes send the accesses of the lower
modes through the tables of a VM. Every access ends up where the code of the
hypervisor translates it to, and a running guest reaches its RAM and nothing else.
-/
namespace PiPervisor.Hv
open Stage2 Library Library.LongDescriptor Library.Transition

variable {P : Platform} {b : Boot P}

section Agreement

/-- VTTBR leads to the root table of a VM with a sound table. -/
theorem vttbrBaddr_hvMmuVttbrForVm (vm : HvVm) (ha : vm.stage2.rootPa.toNat % 4096 = 0)
    (hb : vm.stage2.rootPa.toNat < 2 ^ 40) :
    vttbrBaddr (hvMmuVttbrForVm vm) = vm.stage2.rootPa.toNat := by
  rw [vttbrBaddr, toNat_hvMmuVttbrForVm vm ha hb]
  omega

/-- At the address `x`, the processor finds what the code of the hypervisor finds: it walks from
the base in VTTBR by the levels of VTCR. -/
structure WalkAgrees (mem : PhysMem) (vm : HvVm) (m : TablePools) (pages : PageMap)
    (x : BitVec 32) : Prop where
  output : ((walk mem x.toNat (walkShifts hvStage2VtcrDefault)
      (vttbrBaddr (hvMmuVttbrForVm vm))).toOption.map fun l => outputAddress l.1 l.2 x.toNat) =
    (hvStage2Translate vm m (x.setWidth 64)).toOption.map BitVec.toNat
  page : ∀ d shift, walk mem x.toNat (walkShifts hvStage2VtcrDefault)
      (vttbrBaddr (hvMmuVttbrForVm vm)) = .ok (d, shift) →
    shift = 12 ∧ ∃ e, pages.entry (x.toNat / 4096) = some e ∧
      d &&& ~~~hvStage2DescAddrMask = e.attrs &&& ~~~hvStage2DescAddrMask ||| hvStage2DescPage
  fault : ∀ access error, hvStage2Translate vm m (x.setWidth 64) = .error error →
    LongDescriptor.translate mem hvStage2VtcrDefault (vttbrBaddr (hvMmuVttbrForVm vm)) access
      x.toNat = .error .translation
  access : ∀ access p, hvStage2Translate vm m (x.setWidth 64) = .ok p →
    ∃ e, pages.entry (x.toNat / 4096) = some e ∧
      LongDescriptor.translate mem hvStage2VtcrDefault (vttbrBaddr (hvMmuVttbrForVm vm)) access
        x.toNat = checkedAccess e.attrs access p.toNat

/-- It does for every address of a VM whose tables hold its page map. -/
theorem walkAgrees_of_refines {vm : HvVm} {m : TablePools} {a : AddressSpace} {mem : PhysMem}
    (h : Refines P vm m a) (hs : a.Sound) (hp : PoolIn P mem m vm.id) (x : BitVec 32) :
    WalkAgrees mem vm m a.pages x := by
  have hbase : vttbrBaddr (hvMmuVttbrForVm vm) = vm.stage2.rootPa.toNat :=
    vttbrBaddr_hvMmuVttbrForVm vm h.rootPa.1 h.rootPa.2
  have hwalk := h.hardware_walk hp x.isLt
  have htrans := h.hvStage2Translate_eq hs x
  have haccess (access : Access) := h.hardware_access hs hp access x.isLt
  rcases hent : a.pages.entry (x.toNat / 4096) with - | e <;>
    simp only [hent, Option.map_none, Option.map_some] at hwalk htrans haccess
  · refine ⟨?_, fun d shift hfound => ?_, fun access error _ => ?_, fun access p hok => ?_⟩
    · rw [hbase, hwalk, htrans]
      rfl
    · rw [hbase, hwalk] at hfound
      cases hfound
    · rw [hbase, haccess]
    · rw [hok] at htrans
      cases htrans
  · have hpage := (hs.page_lt hent).2
    refine ⟨?_, fun d shift hfound => ?_, fun access error herr => ?_, fun access p hok => ?_⟩
    · rw [hbase, hwalk, htrans]
      exact congrArg some (outputAddress_pageDesc (by omega) e.attrs x.toNat)
    · rw [hbase, hwalk] at hfound
      obtain ⟨rfl, rfl⟩ := Prod.mk.inj (Except.ok.inj hfound)
      exact ⟨rfl, e, hent, pageDesc_attrs _ _⟩
    · rw [herr] at htrans
      cases htrans
    · rw [hok] at htrans
      rw [hbase, haccess, ← Option.some.inj htrans]
      exact ⟨e, hent, rfl⟩

/-- After any calls on any number of VMs, the walk of the processor from VTTBR agrees with
`hvStage2Translate` at every address: it finds the same physical address or faults, it ends at
pages of 4 KiB, and it lets an access pass exactly if the mapping of the page does. -/
theorem hardware_walk_agrees {ι : Type*} [DecidableEq ι] (P : Platform) (s : SharedVms ι)
    (a : ι → AddressSpace) (ops : List (ι × VmOp)) (hsep : Separate P (fun _ => none) ops)
    (mem : PhysMem) :
    let run := exec (sharedStep P) s ops
    let spec := exec (interleave (AddressSpace.op P)) a ops
    ∀ i, Initialised P ops i → PoolIn P mem run.2.2 (run.2.1 i).id → ∀ x : BitVec 32,
      WalkAgrees mem (run.2.1 i) run.2.2 (spec.2 i).pages x := by
  intro run spec i hi hp x
  obtain ⟨href, hs⟩ := run_refines s a ops hsep hi
  exact walkAgrees_of_refines href hs hp x

/-- Two VMs after their calls, with their pools in memory. -/
theorem hardware_walk_agrees_two_vms :
    let run := exec (sharedStep .twoSlots) uninitialisedVms twoVmOps
    let spec := exec (interleave (AddressSpace.op .twoSlots)) (fun _ => .empty) twoVmOps
    WalkAgrees (poolMemory .twoSlots run.2.2) (run.2.1 true) run.2.2 (spec.2 true).pages
      0x402345 := by
  intro run spec
  have hpool : PoolIn .twoSlots (poolMemory .twoSlots run.2.2) run.2.2 (run.2.1 true).id :=
    fun n _ => congrFun (tablesIn_poolMemory .twoSlots run.2.2) n
  have hinit : Initialised .twoSlots twoVmOps true := ⟨1, 2, by decide, by simp [twoVmOps]⟩
  exact hardware_walk_agrees .twoSlots uninitialisedVms (fun _ => .empty) twoVmOps
    twoVmOps_separate _ true hinit hpool 0x402345

end Agreement

section Mmu

/-- Where an access of the lower modes ends up, by the control registers. -/
def stage2Access (cpu : Cpu) (mem : PhysMem) (access : Access) (x : BitVec 32) : Except Fault ℕ :=
  if cpu.hcr &&& hcrVm = 0 then .ok x.toNat
  else LongDescriptor.translate mem cpu.vtcr (vttbrBaddr cpu.vttbr) access x.toNat

/-- The tables of all VMs lie in physical memory. -/
def TablesIn (mem : PhysMem) (m : Core P) : Prop :=
  ∀ n < P.hvMaxVms * 4096, tablesIn P mem n = m.stage2TablePools n

/-- The RAM of a guest, by its own addresses. -/
def InRam (x : ℕ) : Prop := guestBase ≤ x ∧ x < guestBase + guestRamSize

instance (x : ℕ) : Decidable (InRam x) := by
  unfold InRam
  infer_instance

/-- Where the RAM of a slot is. -/
def slotAddress (i : VmIdx P) (x : ℕ) : ℕ := guestBase + i * guestSlotSize + (x - guestBase)

theorem closed_vtcr : Closed fun m : Core P => m.cpu.vtcr = hvStage2VtcrDefault where
  setVcpu _ _ _ h := h
  select _ _ _ h := h
  setFrame _ _ h := h
  setHcr _ _ h := h
  restore _ _ _ h := h
  activate m i h := by
    rw [Core.activate]
    dsimp only
    split
    · rfl
    · exact h

/-- The pages of a guest may be read, written and executed. -/
theorem checkedAccess_guestPage (slot : BitVec 32) (access : Access) (p : ℕ) :
    checkedAccess (guestRamRegion slot).attrs access p = .ok p := by
  have hflag : ¬ (guestRamRegion slot).attrs.getLsbD 10 = false := by
    change ¬ hvStage2PageNormalNcRw.getLsbD 10 = false
    decide
  have hpermits : permits (guestRamRegion slot).attrs access = true := by
    change permits hvStage2PageNormalNcRw access = true
    cases access <;> decide
  rw [checkedAccess, if_neg hflag, hpermits]
  rfl

/-- A running guest reaches its RAM with every kind of access, and nothing else. -/
theorem Running.stage2Access {r : RunState P} (hr : Running b r)
    (hv : r.hyp.cpu.vtcr = hvStage2VtcrDefault) {i : VmIdx P}
    (hc : r.hyp.scheduler.curVcpu = some i.castSucc) {mem : PhysMem}
    (hmem : TablesIn mem r.hyp.toCore) (access : Access) (x : BitVec 32) :
    stage2Access r.hyp.cpu mem access x =
      if InRam x.toNat then .ok (slotAddress i x.toNat) else .error .translation := by
  obtain ⟨c, hs⟩ := hr.settled
  obtain rfl : c = i.castSucc := Option.some.inj (hs.current.symm.trans hc)
  have hlt := x.isLt
  have hvm := hs.roster.guest_vm i
  have hfit := hr.controlsFit hc
  have href := (hr.vms i).1
  have hpool : PoolIn P mem r.hyp.stage2TablePools (r.hyp.scheduler.vm i).id := by
    intro n hn
    have hi := i.isLt
    rw [href.id, ownPool, Set.mem_Ico] at hn
    exact hmem n (by omega)
  have hwalk := href.refines.hardware_access href.sound hpool access hlt
  rw [guestSpace_entry] at hwalk
  have hon : ¬ r.hyp.cpu.hcr &&& hcrVm = 0 := hfit.vm.mpr (by rw [hvm]; rfl)
  rw [PiPervisor.Hv.stage2Access, if_neg hon, hv, hfit.baddr i hvm, hwalk]
  by_cases hx : InRam x.toNat
  · have hram := hx
    rw [InRam, guestBase, guestRamSize] at hram
    have hi := i.isLt
    have hfit := P.slots_fit
    rw [guestBase, guestSlotSize] at hfit
    rw [if_pos hx, if_pos (by omega)]
    dsimp only
    rw [checkedAccess_guestPage, slotAddress, guestBase, guestSlotSize]
    refine congrArg Except.ok ?_
    omega
  · have hram := hx
    rw [InRam, guestBase, guestRamSize] at hram
    rw [if_neg hx, if_neg (by omega)]

end Mmu

end PiPervisor.Hv
