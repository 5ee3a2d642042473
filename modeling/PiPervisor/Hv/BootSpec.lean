import PiPervisor.Hv.GuestSpace
import PiPervisor.Hv.IrqSpec

/-! # The state that the boot reaches

Initialising the scheduler never fails: each slot gets its VM, whose tables
refine the address space of the slot. After the vCPUs are initialised and the
first one is entered, the invariant of the runs holds.
-/
namespace PiPervisor.Hv
open Stage2 Stage2.AddressSpace Library Library.Memory Library.BitField Library.ContextSwitch

variable {P : Platform} {m : Core P}

/-- Each slot's VM has its number as id and VMID, and refines the slot's address space. -/
def VmsBooted (m : Core P) : Prop :=
  ∀ i : VmIdx P, RefinesAt P i (m.scheduler.vm i) m.stage2TablePools
    (guestSpace (BitVec.ofNat 32 i)) ∧ (m.scheduler.vm i).vmid = BitVec.ofNat 32 i

theorem VmsBooted.keepsTables {m' : Core P} (h : VmsBooted m)
    (hvms : m'.scheduler.vm = m.scheduler.vm)
    (hpools : m'.stage2TablePools = m.stage2TablePools) : VmsBooted m' := by
  intro i
  rw [hvms, hpools]
  exact h i

section InitVm

theorem hypAssert_code {code : ℤ} (hc : code = hvVmOk) (msg : String) :
    hypAssert (code == hvVmOk) msg = .ok () := by
  rw [hc]
  rfl

/-- No assertion fails: every region is accepted and the pool holds the tables. -/
theorem buildGuestVm_spec (vm : HvVm) (pools : TablePools) (i : VmIdx P) :
    ∃ vm' pools', buildGuestVm vm pools i = .ok (vm', pools') ∧
      RefinesAt P i vm' pools' (guestSpace (BitVec.ofNat 32 i)) ∧
      vm'.vmid = BitVec.ofNat 32 i ∧ SameOutside (ownPool i) pools pools' := by
  have hinit := hvVmInit_agrees P vm pools (BitVec.ofNat 32 i) i.isLt
  rw [buildGuestVm]
  generalize hvVmInit P vm pools i (BitVec.ofNat 32 i) = r0 at hinit
  obtain ⟨hcode, hid, hvmid, href, hout⟩ := hinit
  have hs1 := Sound.empty.addRegion (guestRamRegion (BitVec.ofNat 32 i))
  have h1 := href.addRegion .nil (guestRamRegion (BitVec.ofNat 32 i))
  rw [addRegion_ram] at h1 hs1
  dsimp only
  generalize hvVmAddRegion r0.2.1 (guestRamRegion (BitVec.ofNat 32 i)) = r1 at h1
  have hs2 := hs1.addRegion guestGuardRegion
  have h2 := h1.refines.addRegion hs1.table guestGuardRegion
  dsimp only at h2 hs2
  rw [addRegion_guard] at h2 hs2
  generalize hvVmAddRegion r1.2 guestGuardRegion = r2 at h2
  have hs3 := hs2.addRegion guestUartRegion
  have h3 := h2.refines.addRegion hs2.table guestUartRegion
  dsimp only at h3 hs3
  rw [addRegion_uart] at h3 hs3
  generalize hvVmAddRegion r2.2 guestUartRegion = r3 at h3
  have h4 : Agrees P r3.2 r0.2.2 (hvVmBuildStage2 r3.2 r0.2.2)
      (hvVmOk, guestSpace (BitVec.ofNat 32 i)) := by
    have hregions : r3.2.regions = (guestSpace (BitVec.ofNat 32 i)).regions := h3.refines.regions
    have hb := h3.refines.build hs3.table (guestSpace (BitVec.ofNat 32 i)).regions
    dsimp only at hb
    rwa [build_guest, ← hregions] at hb
  generalize hvVmBuildStage2 r3.2 r0.2.2 = r4 at h4
  have hagree := ((h1.trans h2).trans h3).trans h4
  rw [hypAssert_code hcode, hypAssert_code h1.code, hypAssert_code h2.code,
    hypAssert_code h3.code, hypAssert_code h4.code]
  exact ⟨r4.2.1, r4.2.2, rfl, ⟨hagree.id.trans hid, h4.refines, guestSpace_sound i⟩,
    hagree.vmid.trans hvmid, hout.trans (hid ▸ hagree.frame)⟩

@[simp] theorem toCore_traceGuestVm (h : Hyp P) (i : VmIdx P) (vm : HvVm) :
    (traceGuestVm h i vm).toCore = h.toCore := by
  rw [traceGuestVm]
  split <;> rfl

/-- How far the loop over the slots has come: the VMs in `S` are built, and nothing but the
VMs, the pools and the VM pointers differs from the state before the loop. -/
structure VmsReady (S : VmIdx P → Prop) (m0 m : Core P) : Prop where
  vms : ∀ i, S i → RefinesAt P i (m.scheduler.vm i) m.stage2TablePools
    (guestSpace (BitVec.ofNat 32 i)) ∧ (m.scheduler.vm i).vmid = BitVec.ofNat 32 i
  vm : ∀ i, S i → (m.vcpu i.castSucc).vm = some i
  idle : m.vcpu (hvIdleVcpuIdx P) = m0.vcpu (hvIdleVcpuIdx P)
  record : ∀ k, ({ m.vcpu k with vm := none } : HvVcpu P) = { m0.vcpu k with vm := none }
  index : m.scheduler.curIdx = m0.scheduler.curIdx
  cpu : m.cpu = m0.cpu

/-- One turn of the loop adds its slot; the other VMs live in other pools. -/
theorem initGuestVm_spec {S : VmIdx P → Prop} {m0 : Core P} {h : Hyp P}
    (hr : VmsReady S m0 h.toCore) (i : VmIdx P) :
    ∃ h', initGuestVm h i = .ok h' ∧ VmsReady (fun k => S k ∨ k = i) m0 h'.toCore := by
  obtain ⟨vm, pools, hb, href, hvmid, hout⟩ :=
    buildGuestVm_spec (h.scheduler.vm i) h.stage2TablePools i
  let h1 := traceGuestVm (h.setVm i vm pools) i vm
  have hcore : h1.toCore = (h.setVm i vm pools).toCore := toCore_traceGuestVm ..
  have hvcpu (k : VcpuIdx P) : (h1.setVcpu i.castSucc
      { h1.vcpu i.castSucc with vm := some i }).vcpu k =
        if k = i.castSucc then { h.vcpu i.castSucc with vm := some i } else h.vcpu k := by
    rw [toCore_setVcpu, Core.vcpu_setVcpu, hcore]
    rfl
  refine ⟨h1.setVcpu i.castSucc { h1.vcpu i.castSucc with vm := some i }, ?_, ?_⟩
  · rw [initGuestVm, hb]
    rfl
  · refine ⟨?_, ?_, ?_, ?_, ?_, ?_⟩
    · intro k hk
      rw [toCore_setVcpu, Core.setVcpu_vm, Core.setVcpu_pools, hcore]
      change RefinesAt P k (Function.update h.scheduler.vm i vm k) pools _ ∧
        (Function.update h.scheduler.vm i vm k).vmid = _
      by_cases hki : k = i
      · subst hki
        rw [Function.update_self]
        exact ⟨href, hvmid⟩
      · obtain ⟨⟨hid, hk, hs⟩, hkv⟩ := hr.vms k (hk.resolve_right hki)
        rw [Function.update_of_ne hki]
        refine ⟨⟨hid, hk.outside hout ?_, hs⟩, hkv⟩
        rw [hid]
        exact fun he => hki (Fin.ext he)
    · intro k hk
      rw [hvcpu]
      split
      · rename_i he
        rw [Fin.castSucc_injective _ he]
      · rename_i he
        exact hr.vm k (hk.resolve_right fun hki => he (congrArg _ hki))
    · rw [hvcpu, if_neg (castSucc_ne_idle i).symm]
      exact hr.idle
    · intro k
      rw [hvcpu]
      split
      · rename_i he
        rw [he]
        exact hr.record i.castSucc
      · exact hr.record k
    · rw [toCore_setVcpu, Core.setVcpu_curIdx, hcore]
      exact hr.index
    · rw [toCore_setVcpu, Core.setVcpu_cpu, hcore]
      exact hr.cpu

theorem foldlM_initGuestVm {S : VmIdx P → Prop} {m0 : Core P} (l : List (VmIdx P)) {h : Hyp P}
    (hr : VmsReady S m0 h.toCore) :
    ∃ h', l.foldlM initGuestVm h = .ok h' ∧ VmsReady (fun k => S k ∨ k ∈ l) m0 h'.toCore := by
  induction l generalizing S h with
  | nil =>
    refine ⟨h, rfl, ?_⟩
    simpa using hr
  | cons i l ih =>
    obtain ⟨h1, h1r, hr1⟩ := initGuestVm_spec hr i
    obtain ⟨h', hr', hready⟩ := ih hr1
    refine ⟨h', ?_, ?_⟩
    · rw [List.foldlM_cons, h1r]
      exact hr'
    · simpa only [List.mem_cons, or_assoc] using hready

end InitVm

section SchedulerInit

/-- The state after the scheduler is initialised. -/
structure SchedulerReady (m0 m : Core P) : Prop where
  vms : VmsBooted m
  guest : ∀ i : VmIdx P, (m.vcpu i.castSucc).id = BitVec.ofNat 32 i ∧
    (m.vcpu i.castSucc).vm = some i ∧ (m.vcpu i.castSucc).virqPending = 0
  waiting : ∀ i : VmIdx P, i.castSucc ≠ 0 → (m.vcpu i.castSucc).state = .idle
  idle_id : (m.vcpu (hvIdleVcpuIdx P)).id = hvIdleVcpuId
  idle_vm : (m.vcpu (hvIdleVcpuIdx P)).vm = none
  idle_state : (m.vcpu (hvIdleVcpuIdx P)).state = .idle
  index : m.scheduler.curIdx = 0
  current : m.scheduler.curVcpu = some 0
  hcr : m.cpu.hcr = m0.cpu.hcr ||| hcrTwi
  vbar : m.cpu.vbar = m0.cpu.vbar
  system : m.cpu.system = m0.cpu.system

/-- The first slot is not the idle vCPU, as there is a guest slot. -/
theorem zero_eq_castSucc : (0 : VcpuIdx P) = (firstVm P).castSucc := rfl

theorem hvSchedulerInit_spec (h : Hyp P) :
    ∃ h', hvSchedulerInit h = .ok h' ∧ SchedulerReady h.toCore h'.toCore := by
  let h0 : Hyp P := { h with scheduler := { h.scheduler with
    curIdx := 0, vcpus := fun i => resetVcpu i (h.vcpu i) } }
  have hstart : VmsReady (fun _ => False) h0.toCore h0.toCore :=
    ⟨nofun, nofun, rfl, fun _ => rfl, rfl, rfl⟩
  obtain ⟨h1, h1r, hr⟩ := foldlM_initGuestVm (List.finRange P.hvMaxVms) (h := h0) hstart
  let idle := hvVcpuInit (h1.vcpu (hvIdleVcpuIdx P)) hvIdleVcpuId P.hvIdleVcpuEntry
    P.idleStackTop hypLowerSvcCpsr
  let h2 := setState (h1.setVcpu (hvIdleVcpuIdx P) idle) (hvIdleVcpuIdx P) .idle
  let h3 := setState h2 0 .runnable
  refine ⟨setHcrBit { h3 with scheduler := { h3.scheduler with curVcpu := some 0 } } hcrTwi,
    ?_, ?_⟩
  · rw [hvSchedulerInit]
    change (List.foldlM initGuestVm h0 (List.finRange P.hvMaxVms) >>= _) = _
    rw [h1r]
    rfl
  have hall (i : VmIdx P) : False ∨ i ∈ List.finRange P.hvMaxVms := .inr (List.mem_finRange i)
  have hguest (i : VmIdx P) : h2.vcpu i.castSucc = h1.vcpu i.castSucc := by
    change (((h1.toCore.setVcpu _ _).setVcpu _ _).vcpu _) = _
    rw [Core.vcpu_setVcpu, if_neg (castSucc_ne_idle i), Core.vcpu_setVcpu,
      if_neg (castSucc_ne_idle i)]
  have h3vcpu (k : VcpuIdx P) : h3.vcpu k =
      if k = 0 then { h2.vcpu 0 with state := .runnable } else h2.vcpu k := Core.vcpu_setVcpu ..
  have hidle0 : hvIdleVcpuIdx P ≠ 0 := (castSucc_ne_idle (firstVm P)).symm
  have hidle : h3.vcpu (hvIdleVcpuIdx P) = { idle with state := .idle } := by
    rw [h3vcpu, if_neg hidle0]
    change (((h1.toCore.setVcpu _ _).setVcpu _ _).vcpu _) = _
    rw [Core.vcpu_setVcpu_self]
    exact congrArg (fun v : HvVcpu P => { v with state := .idle }) (Core.vcpu_setVcpu_self ..)
  have hrecord (i : VmIdx P) : ({ h1.vcpu i.castSucc with vm := none } : HvVcpu P) =
      { resetVcpu i.castSucc (h.vcpu i.castSucc) with vm := none } := hr.record i.castSucc
  refine ⟨fun i => hr.vms i (hall i), fun i => ?_, fun i hi => ?_, ?_, ?_, ?_, hr.index, rfl,
    ?_, (congrArg Cpu.vbar hr.cpu : h1.cpu.vbar = h0.cpu.vbar),
    (congrArg Cpu.system hr.cpu : h1.cpu.system = h0.cpu.system)⟩
  · have hid := congrArg HvVcpu.id (hrecord i)
    have hpending := congrArg HvVcpu.virqPending (hrecord i)
    change (h3.vcpu i.castSucc).id = _ ∧ (h3.vcpu i.castSucc).vm = _ ∧
      (h3.vcpu i.castSucc).virqPending = _
    rw [h3vcpu]
    split
    · rename_i he
      rw [← he, hguest]
      exact ⟨hid, hr.vm i (hall i), hpending⟩
    · rw [hguest]
      exact ⟨hid, hr.vm i (hall i), hpending⟩
  · have hstate := congrArg HvVcpu.state (hrecord i)
    change (h3.vcpu i.castSucc).state = _
    rw [h3vcpu, if_neg hi, hguest]
    exact hstate
  · exact congrArg HvVcpu.id hidle
  · exact (congrArg HvVcpu.vm hidle).trans (congrArg HvVcpu.vm hr.idle)
  · exact congrArg HvVcpu.state hidle
  · exact congrArg (fun cpu : Cpu => cpu.hcr ||| hcrTwi) hr.cpu

end SchedulerInit

section Main

theorem startedVcpu_spec (i : VmIdx P) (g : GuestBoot) (v : HvVcpu P) :
    (startedVcpu i g v).id = BitVec.ofNat 32 i ∧ (startedVcpu i g v).vm = v.vm ∧
      (startedVcpu i g v).state = .runnable ∧ (startedVcpu i g v).virqPending = 0 ∧
      (startedVcpu i g v).context = initialContext g.entryPoint g.stackTop g.cpsr := by
  have hperiodic (w : HvVcpu P) (now period : BitVec 64) :
      ∃ t, hvVcpuTimerStartPeriodic w now period = { w with timer := t } := by
    rw [hvVcpuTimerStartPeriodic]
    split
    · exact ⟨w.timer, rfl⟩
    · exact ⟨_, rfl⟩
  rw [startedVcpu]
  rcases g.periodic with - | ⟨now, period⟩
  · exact ⟨rfl, rfl, rfl, rfl, rfl⟩
  · obtain ⟨t, ht⟩ := hperiodic
      (hvVcpuInit v (BitVec.ofNat 32 i) g.entryPoint g.stackTop g.cpsr) now period
    dsimp only
    rw [ht]
    exact ⟨rfl, rfl, rfl, rfl, rfl⟩

/-- The loop over the guests reaches each slot once. -/
theorem foldl_initGuestVcpu (guests : VmIdx P → Option GuestBoot) (l : List (VmIdx P))
    (hl : l.Nodup) (h : Hyp P) :
    ∃ vcpus, l.foldl (initGuestVcpu guests) h = { h with toCore := h.toCore.setVcpus vcpus } ∧
      (∀ i ∈ l, ∀ g, guests i = some g →
        vcpus i.castSucc = startedVcpu i g (h.vcpu i.castSucc)) ∧
      ∀ k, (∀ i ∈ l, k = i.castSucc → guests i = none) → vcpus k = h.vcpu k := by
  induction l generalizing h with
  | nil => exact ⟨h.scheduler.vcpus, rfl, nofun, fun _ _ => rfl⟩
  | cons i l ih =>
    obtain ⟨hi, hl⟩ := List.nodup_cons.mp hl
    obtain ⟨vcpus, hfold, hin, hout⟩ := ih hl (initGuestVcpu guests h i)
    have hother (k : VcpuIdx P) (hk : k = i.castSucc → guests i = none) :
        (initGuestVcpu guests h i).vcpu k = h.vcpu k := by
      rw [initGuestVcpu]
      rcases hg : guests i with - | g
      · rfl
      · refine (Core.vcpu_setVcpu ..).trans (if_neg fun he => ?_)
        rw [hk he] at hg
        cases hg
    have hsame (k : VmIdx P) (hk : k ∈ l) : k.castSucc ≠ i.castSucc :=
      fun he => hi (Fin.castSucc_injective _ he ▸ hk)
    refine ⟨vcpus, ?_, ?_, ?_⟩
    · rw [List.foldl_cons, hfold, initGuestVcpu]
      rcases guests i with - | g <;> rfl
    · intro k hk g hg
      rcases List.mem_cons.mp hk with rfl | hk
      · have hself := hout k.castSucc
          fun k' hk' he => absurd (Fin.castSucc_injective _ he) fun hkk => hi (hkk ▸ hk')
        rw [hself, initGuestVcpu, hg]
        exact Core.vcpu_setVcpu_self ..
      · rw [hin k hk g hg, hother _ fun he => absurd he (hsame k hk)]
    · intro k hk
      rw [hout k fun k' hk' he => hk k' (List.mem_cons_of_mem _ hk') he,
        hother k fun he => hk i List.mem_cons_self he]

/-- Entering the first vCPU loads everything but VBAR. -/
theorem toCore_hvVcpuEnterInitial (h : Hyp P) (i : VcpuIdx P) :
    (hvVcpuEnterInitial h i).toCore =
      { h.toCore.activate i with
        cpu := { (h.toCore.activate i).cpu with banked := (h.vcpu i).context.bankedRegs }
        frame := (h.vcpu i).context.hypState } := by
  have hvcpu (k : VcpuIdx P) : (hvMmuActivateVcpu h i).vcpu k = h.vcpu k := by
    rw [toCore_hvMmuActivateVcpu]
    rfl
  rw [hvVcpuEnterInitial]
  change { (hvMmuActivateVcpu h i).toCore with
    cpu := { (hvMmuActivateVcpu h i).cpu with
      banked := ((hvMmuActivateVcpu h i).vcpu i).context.bankedRegs }
    frame := ((hvMmuActivateVcpu h i).vcpu i).context.hypState } = _
  rw [hvcpu, toCore_hvMmuActivateVcpu]

/-- The slots once their guests are initialised and the first of them is marked as running. -/
structure GuestsReady (b : Boot P) (m : Core P) : Prop where
  vms : VmsBooted m
  roster : Roster m
  pending : ∀ i : VmIdx P, (m.vcpu i.castSucc).virqPending = 0
  running : (m.vcpu 0).state = .running
  others : ∀ k ≠ 0, (m.vcpu k).state ≠ .running
  idle : (m.vcpu (hvIdleVcpuIdx P)).state = .idle
  unused : ∀ i, b.guests i = none → (m.vcpu i.castSucc).state = .idle
  context : ∀ i g, b.guests i = some g →
    (m.vcpu i.castSucc).context = initialContext g.entryPoint g.stackTop g.cpsr
  index : m.scheduler.curIdx = 0
  current : m.scheduler.curVcpu = some 0
  hcr : m.cpu.hcr = b.hcr ||| hcrTwi
  vbar : m.cpu.vbar = b.reset.cpu.vbar

theorem Boot.guests_first (b : Boot P) : b.guests (firstVm P) ≠ none :=
  Option.isSome_iff_ne_none.mp b.first

/-- The number of a slot is not the id of the idle vCPU. -/
theorem slot_ne_idleId (i : VmIdx P) : BitVec.ofNat 32 i ≠ hvIdleVcpuId := by
  have hfit := P.slots_fit
  have hi := i.isLt
  intro he
  have hn : (BitVec.ofNat 32 i).toNat = 0xffffffff := congrArg BitVec.toNat he
  rw [BitVec.toNat_ofNat] at hn
  rw [guestBase, guestSlotSize] at hfit
  omega

/-- The loop over the guests, from the initialised scheduler to the first guest marked. -/
theorem guestsReady (b : Boot P) {h : Hyp P} (hr : SchedulerReady b.reset.toCore h.toCore)
    {vcpus : VcpuIdx P → HvVcpu P} {m : Core P}
    (hin : ∀ i ∈ List.finRange P.hvMaxVms, ∀ g, b.guests i = some g →
      vcpus i.castSucc = startedVcpu i g (h.vcpu i.castSucc))
    (hout : ∀ k, (∀ i ∈ List.finRange P.hvMaxVms, k = i.castSucc → b.guests i = none) →
      vcpus k = h.vcpu k)
    (hvms : m.scheduler.vm = h.scheduler.vm) (hpools : m.stage2TablePools = h.stage2TablePools)
    (hvcpu : ∀ k, m.vcpu k = if k = 0 then { vcpus 0 with state := .running } else vcpus k)
    (hidx : m.scheduler.curIdx = 0) (hcur : m.scheduler.curVcpu = some 0)
    (hhcr : m.cpu.hcr = b.hcr ||| hcrTwi) (hvbar : m.cpu.vbar = h.cpu.vbar) :
    GuestsReady b m := by
  have hguest (i : VmIdx P) (g : GuestBoot) (hg : b.guests i = some g) :
      vcpus i.castSucc = startedVcpu i g (h.vcpu i.castSucc) := hin i (List.mem_finRange i) g hg
  have hunused (i : VmIdx P) (hi : b.guests i = none) : vcpus i.castSucc = h.vcpu i.castSucc :=
    hout _ fun i' _ he => Fin.castSucc_injective _ he ▸ hi
  have hidle : vcpus (hvIdleVcpuIdx P) = h.vcpu (hvIdleVcpuIdx P) :=
    hout _ fun i' _ he => absurd he.symm (castSucc_ne_idle i')
  have hrecord (k : VcpuIdx P) : (m.vcpu k).id = (vcpus k).id ∧ (m.vcpu k).vm = (vcpus k).vm ∧
      (m.vcpu k).virqPending = (vcpus k).virqPending ∧ (m.vcpu k).context = (vcpus k).context := by
    rw [hvcpu]
    split
    · rename_i hk
      rw [hk]
      exact ⟨rfl, rfl, rfl, rfl⟩
    · exact ⟨rfl, rfl, rfl, rfl⟩
  have hid (i : VmIdx P) : (vcpus i.castSucc).id = BitVec.ofNat 32 i ∧
      (vcpus i.castSucc).vm = some i ∧ (vcpus i.castSucc).virqPending = 0 := by
    obtain ⟨hid, hvm, hpending⟩ := hr.guest i
    rcases hg : b.guests i with - | g
    · rw [hunused i hg]
      exact ⟨hid, hvm, hpending⟩
    · obtain ⟨sid, svm, -, spending, -⟩ := startedVcpu_spec i g (h.vcpu i.castSucc)
      rw [hguest i g hg]
      exact ⟨sid, svm.trans hvm, spending⟩
  have hidle0 : hvIdleVcpuIdx P ≠ 0 := (castSucc_ne_idle (firstVm P)).symm
  have hzero (i : VmIdx P) (hi : b.guests i = none) : i.castSucc ≠ 0 := by
    intro he
    rw [zero_eq_castSucc] at he
    exact b.guests_first (Fin.castSucc_injective _ he ▸ hi)
  refine ⟨hr.vms.keepsTables hvms hpools, ⟨?_, ?_, ?_, ?_⟩, ?_, ?_, ?_, ?_, ?_, ?_, hidx, hcur, hhcr,
    hvbar.trans hr.vbar⟩
  · intro i
    rw [(hrecord _).1, (hid i).1]
    exact slot_ne_idleId i
  · intro i
    rw [(hrecord _).2.1, (hid i).2.1]
  · rw [(hrecord _).1, hidle, hr.idle_id]
  · rw [(hrecord _).2.1, hidle, hr.idle_vm]
  · intro i
    rw [(hrecord _).2.2.1, (hid i).2.2]
  · rw [hvcpu, if_pos rfl]
  · intro k hk
    rw [hvcpu, if_neg hk]
    by_cases hki : k = hvIdleVcpuIdx P
    · rw [hki, hidle, hr.idle_state]
      simp
    · obtain ⟨i, rfl⟩ := eq_castSucc_of_ne_idle hki
      rcases hg : b.guests i with - | g
      · rw [hunused i hg, hr.waiting i hk]
        simp
      · rw [hguest i g hg, (startedVcpu_spec i g _).2.2.1]
        simp
  · rw [hvcpu, if_neg hidle0, hidle, hr.idle_state]
  · intro i hi
    rw [hvcpu, if_neg (hzero i hi), hunused i hi, hr.waiting i (hzero i hi)]
  · intro i g hg
    rw [(hrecord _).2.2.2, hguest i g hg]
    exact (startedVcpu_spec i g _).2.2.2.2

/-- The control registers of a guest that is entered, when the traps are already set up. -/
theorem GuestsReady.controls {b : Boot P} (hr : GuestsReady b m) :
    Controls b.hcr (m.activate 0) 0 ∧ (m.activate 0).cpu.hcr &&& hcrVi = 0 := by
  have hne : (0 : VcpuIdx P) ≠ hvIdleVcpuIdx P := castSucc_ne_idle (firstVm P)
  have hb : b.hcr = hcrSwio ||| hcrImo ∨ b.hcr = hcrSwio := by
    rw [Boot.hcr]
    split
    · exact .inl rfl
    · exact .inr rfl
  have htwi : m.syncTraps 0 = m := by
    have hhcr : putMask m.cpu.hcr hcrTwi (decide ((0 : VcpuIdx P) ≠ hvIdleVcpuIdx P)) = m.cpu.hcr := by
      rw [decide_eq_true hne, hr.hcr]
      rcases hb with hb | hb <;> rw [hb] <;> decide
    rw [Core.syncTraps, hhcr]
    rfl
  have hother : m.cpu.hcr &&& hcrOther = b.hcr &&& hcrOther := by
    rw [hr.hcr]
    rcases hb with hb | hb <;> rw [hb] <;> decide
  have hfollow := controls_follow hother 0
  rw [Core.follow, htwi] at hfollow
  refine ⟨hfollow, ?_⟩
  change putMask m.cpu.hcr hcrVm _ &&& hcrVi = 0
  rw [putMask_and_of_disjoint _ (by decide), hr.hcr]
  rcases hb with hb | hb <;> rw [hb] <;> decide

/-- The registers with which a guest runs for the first time; VBAR of the first guest is
whatever the boot leaves in it. -/
def startContext (b : Boot P) (i : VmIdx P) (g : GuestBoot) : CpuContext :=
  let context := (initialContext g.entryPoint g.stackTop g.cpsr).toCpu
  if i = firstVm P then { context with vbar := b.reset.cpu.vbar } else context

theorem GuestsReady.enter {b : Boot P} {h : Hyp P} (hr : GuestsReady b h.toCore) :
    Settled b 0 (hvVcpuEnterInitial h 0).toCore ∧ VmsBooted (hvVcpuEnterInitial h 0).toCore ∧
      ∀ i g, b.guests i = some g →
        (hvVcpuEnterInitial h 0).registers.context i.castSucc = startContext b i g := by
  obtain ⟨hcontrols, hvi⟩ := hr.controls
  have hne : (0 : VcpuIdx P) ≠ hvIdleVcpuIdx P := castSucc_ne_idle (firstVm P)
  have hpending : (h.vcpu 0).virqPending = 0 := hr.pending (firstVm P)
  rw [toCore_hvVcpuEnterInitial]
  refine ⟨⟨⟨hr.current, hr.index, hr.roster.keeps ⟨rfl, rfl, fun _ => rfl, fun _ => rfl⟩,
    hr.others, .inl hr.idle, fun i hi => ⟨hr.unused i hi, ?_⟩,
    hcontrols.keeps ⟨rfl, rfl, fun _ => rfl, fun _ => rfl⟩ rfl rfl⟩, hr.running,
    fun he => absurd he hne, ?_⟩, hr.vms, ?_⟩
  · intro he
    have h0 := hr.unused i hi
    rw [← he] at h0
    exact absurd (hr.running.symm.trans h0) (by simp)
  · exact iff_of_false (fun hn => hn hvi) (fun hn => hn hpending)
  · intro i g hg
    have hctx := hr.context i g hg
    rw [startContext, Registers.context]
    by_cases hi : i = firstVm P
    · have hcur : h.scheduler.curVcpu = some i.castSucc := hi ▸ hr.current
      subst hi
      apply (if_pos hcur).trans
      rw [if_pos rfl]
      change CpuContext.mk (h.vcpu 0).context.hypState (h.vcpu 0).context.bankedRegs h.cpu.vbar = _
      have hctx0 : (h.vcpu 0).context = _ := hctx
      rw [hctx0, hr.vbar]
      rfl
    · have hcur : h.scheduler.curVcpu ≠ some i.castSucc := by
        rw [hr.current]
        intro he
        have hz : (firstVm P).castSucc = i.castSucc := Option.some.inj he
        exact hi (Fin.castSucc_injective _ hz).symm
      apply (if_neg hcur).trans
      rw [if_neg hi]
      exact congrArg HvVcpuContext.toCpu hctx

/-- The main program just before the physical timer is re-armed, from the initialised scheduler
and the records of the guests. -/
def Boot.started (b : Boot P) (h : Hyp P) (vcpus : VcpuIdx P → HvVcpu P) : Hyp P :=
  let h : Hyp P := if b.routeIrqs then hypEnableIrqRouting h else h
  setState { h with scheduler := { h.scheduler with
    vcpus := vcpus, curIdx := 0, curVcpu := some 0 } } 0 .running

/-- The main program before the first guest is entered. -/
def Boot.rearmed (b : Boot P) (h : Hyp P) : Hyp P := if b.rearm then hvVtimerRearmPhysical h else h

theorem Boot.toCore_rearmed (b : Boot P) (h : Hyp P) : (b.rearmed h).toCore = h.toCore := by
  rw [Boot.rearmed]
  split
  · exact toCore_hvVtimerRearmPhysical h
  · rfl

/-- What the main program does, with the loops over the slots done. -/
theorem Boot.main_eq (b : Boot P) : ∃ h vcpus, hvSchedulerInit b.reset = .ok h ∧
    SchedulerReady b.reset.toCore h.toCore ∧
    (∀ i g, b.guests i = some g → vcpus i.castSucc = startedVcpu i g (h.vcpu i.castSucc)) ∧
    (∀ k, (∀ i : VmIdx P, k = i.castSucc → b.guests i = none) → vcpus k = h.vcpu k) ∧
    b.main = .ok (hvVcpuEnterInitial (b.rearmed (b.started h vcpus)) 0) := by
  obtain ⟨h1, h1r, hready⟩ := hvSchedulerInit_spec b.reset
  let h2 : Hyp P := if b.routeIrqs then hypEnableIrqRouting h1 else h1
  obtain ⟨vcpus, hfold, hin, hout⟩ :=
    foldl_initGuestVcpu b.guests (List.finRange P.hvMaxVms) (List.nodup_finRange _) h2
  have hvcpu (k : VcpuIdx P) : h2.vcpu k = h1.vcpu k := by
    by_cases hroute : b.routeIrqs = true
    · have h2eq : h2 = hypEnableIrqRouting h1 := if_pos hroute
      rw [h2eq]
      rfl
    · have h2eq : h2 = h1 := if_neg hroute
      rw [h2eq]
  refine ⟨h1, vcpus, h1r, hready, fun i g hg => ?_, fun k hk => ?_, ?_⟩
  · rw [hin i (List.mem_finRange i) g hg, hvcpu]
  · rw [hout k fun i _ => hk i, hvcpu]
  · rw [Boot.main, h1r]
    change Except.ok (hvVcpuEnterInitial (if b.rearm then hvVtimerRearmPhysical (setState
      { (List.foldl (initGuestVcpu b.guests) h2 (List.finRange P.hvMaxVms)) with
        scheduler := { (List.foldl (initGuestVcpu b.guests) h2
          (List.finRange P.hvMaxVms)).scheduler with curIdx := 0, curVcpu := some 0 } } 0 .running)
      else _) 0) = _
    rw [hfold]
    rfl

/-- The boot never fails, and what it reaches satisfies the invariant of the runs. -/
theorem Boot.main_spec (b : Boot P) :
    ∃ h, b.main = .ok h ∧ Settled b 0 h.toCore ∧ VmsBooted h.toCore ∧
      ∀ i g, b.guests i = some g → h.registers.context i.castSucc = startContext b i g := by
  obtain ⟨h1, vcpus, -, hready, hin, hout, hmain⟩ := b.main_eq
  have hcore : (b.started h1 vcpus).scheduler.vm = h1.scheduler.vm ∧
      (b.started h1 vcpus).stage2TablePools = h1.stage2TablePools ∧
      (b.started h1 vcpus).cpu.vbar = h1.cpu.vbar ∧
      (b.started h1 vcpus).cpu.hcr = b.hcr ||| hcrTwi := by
    have hhcr := hready.hcr
    rw [b.hcr_reset] at hhcr
    by_cases hroute : b.routeIrqs = true
    · rw [Boot.started, if_pos hroute, Boot.hcr, if_pos hroute]
      refine ⟨rfl, rfl, rfl, ?_⟩
      change h1.cpu.hcr ||| hcrImo = _
      rw [hhcr]
      decide
    · rw [Boot.started, if_neg hroute, Boot.hcr, if_neg hroute]
      exact ⟨rfl, rfl, rfl, hhcr⟩
  obtain ⟨hvms, hpools, hvbar, hhcr⟩ := hcore
  have hguests : GuestsReady b (b.rearmed (b.started h1 vcpus)).toCore := by
    rw [b.toCore_rearmed]
    exact guestsReady b hready (fun i _ => hin i) (fun k hk => hout k fun i => hk i (List.mem_finRange i))
      hvms hpools (fun k => Core.vcpu_setVcpu ..) rfl rfl hhcr hvbar
  exact ⟨_, hmain, hguests.enter⟩

/-- The boot leaves the registers of the guests as the reset left them. -/
theorem Boot.main_system (b : Boot P) {h : Hyp P} (hr : b.main = .ok h) :
    h.cpu.system = b.reset.cpu.system := by
  obtain ⟨h1, vcpus, -, hready, -, -, hmain⟩ := b.main_eq
  rw [hmain] at hr
  cases hr
  have hstarted : (b.started h1 vcpus).cpu.system = h1.cpu.system := by
    rw [Boot.started]
    split <;> rfl
  have hactivate : ((b.rearmed (b.started h1 vcpus)).toCore.activate 0).cpu.system =
      (b.started h1 vcpus).cpu.system := by
    rw [b.toCore_rearmed]
    rfl
  rw [toCore_hvVcpuEnterInitial]
  exact hactivate.trans (hstarted.trans hready.system)

/-- After the boot every slot is unused, ready or running. -/
theorem Boot.main_states (b : Boot P) {h : Hyp P} (hr : b.main = .ok h) (k : VcpuIdx P) :
    (h.vcpu k).state = .idle ∨ (h.vcpu k).state = .runnable ∨ (h.vcpu k).state = .running := by
  obtain ⟨h1, vcpus, -, hready, hin, hout, hmain⟩ := b.main_eq
  rw [hmain] at hr
  cases hr
  have hvcpu : (hvVcpuEnterInitial (b.rearmed (b.started h1 vcpus)) 0).vcpu k =
      if k = 0 then { vcpus 0 with state := .running } else vcpus k := by
    rw [toCore_hvVcpuEnterInitial]
    change (b.rearmed (b.started h1 vcpus)).vcpu k = _
    rw [b.toCore_rearmed]
    exact Core.vcpu_setVcpu ..
  rw [hvcpu]
  split
  · exact .inr (.inr rfl)
  · rename_i hk
    by_cases hidle : k = hvIdleVcpuIdx P
    · rw [hidle, hout _ fun i he => absurd he.symm (castSucc_ne_idle i), hready.idle_state]
      exact .inl rfl
    · obtain ⟨i, rfl⟩ := eq_castSucc_of_ne_idle hidle
      rcases hg : b.guests i with - | g
      · rw [hout _ fun i' he => Fin.castSucc_injective _ he ▸ hg, hready.waiting i hk]
        exact .inl rfl
      · rw [hin i g hg, (startedVcpu_spec i g _).2.2.1]
        exact .inr (.inl rfl)

end Main

end PiPervisor.Hv
