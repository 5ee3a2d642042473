import PiPervisor.Stage2.Build
import PiPervisor.Hv.SchedRefinement

/-! # The two outcomes of an abort

An abort of a guest is an access that a device has served, and the guest goes on behind
the instruction, or it is the end of the guest, and another vCPU takes over. Which of
them it is depends on the page of the address alone, as far as the regions decide it.
-/
namespace PiPervisor.Hv
open Stage2 Library.BitField Library.ContextSwitch Library.RoundRobin

variable {P : Platform} {b : Boot P} {c : VcpuIdx P} {i : VmIdx P} {h h' : Hyp P}

/-- A prefetch or data abort taken from a guest. -/
def IsAbort (f : HypExceptState) : Prop :=
  f.exceptionType = hypExceptionLowerSync ∧
    (hsrEc f.hsr = hsrEcPrefetchAbortLower ∨ hsrEc f.hsr = hsrEcDataAbortLower)

instance (f : HypExceptState) : Decidable (IsAbort f) := by
  unfold IsAbort
  infer_instance

section Address

/-- The address in the fault registers: a page, and the offset of a data abort if it is valid. -/
def abortIpa (f : HypExceptState) : ℕ :=
  f.hpfar.toNat / 16 * 4096 +
    if hsrEc f.hsr = hsrEcDataAbortLower ∧ hsrIss f.hsr &&& hsrIssAbortFnv = 0 then
      f.hdfar.toNat % 4096
    else 0

theorem toNat_faultPage (hpfar : BitVec 32) : (faultPage hpfar).toNat = hpfar.toNat / 16 * 4096 := by
  have hmask : IsField (0xfffffff0 : BitVec 32) 4 32 := isField_of_forall_lt le_rfl (by decide)
  have hhigh := toNat_and_high hpfar hmask
  have hlt := hpfar.isLt
  rw [faultPage, BitVec.toNat_shiftLeft, BitVec.toNat_setWidth_of_le (by decide), hhigh,
    Nat.shiftLeft_eq]
  omega

theorem toNat_ipa (hf : IsAbort h.frame) :
    (decodeStage2Fault h c).ipa.toNat = abortIpa h.frame := by
  have hpage := toNat_faultPage h.frame.hpfar
  have hoffset : (h.frame.hdfar.setWidth 64 &&& (hvStage2PageSize - 1)).toNat =
      h.frame.hdfar.toNat % 4096 := by
    rw [toNat_and_low _ _ 12 (by decide), BitVec.toNat_setWidth_of_le (by decide)]
    rfl
  change (if (!(hsrEc h.frame.hsr == hsrEcPrefetchAbortLower) &&
      (hsrIss h.frame.hsr &&& hsrIssAbortFnv == 0)) = true then _ else _ : BitVec 64).toNat = _
  have hvalid : (!(hsrEc h.frame.hsr == hsrEcPrefetchAbortLower) &&
      (hsrIss h.frame.hsr &&& hsrIssAbortFnv == 0)) = true ↔
      hsrEc h.frame.hsr = hsrEcDataAbortLower ∧ hsrIss h.frame.hsr &&& hsrIssAbortFnv = 0 := by
    rw [Bool.and_eq_true, Bool.not_eq_true', beq_eq_false_iff_ne, beq_iff_eq]
    refine and_congr_left fun _ => ⟨hf.2.resolve_left, fun he => ?_⟩
    rw [he]
    decide
  rw [abortIpa]
  by_cases hv : hsrEc h.frame.hsr = hsrEcDataAbortLower ∧ hsrIss h.frame.hsr &&& hsrIssAbortFnv = 0
  · rw [if_pos hv, if_pos (hvalid.mpr hv), toNat_or_low _ _ 12, hpage, hoffset]
    · omega
    · omega
  · rw [if_neg hv, if_neg (mt hvalid.mp hv), hpage, Nat.add_zero]

end Address

section Outcomes

/-- The address lies in a device region, and the device has served the access. -/
def Served (h : Hyp P) (c : VcpuIdx P) (i : VmIdx P) : Prop :=
  (∃ region, hvVmFindRegion (h.scheduler.vm i) (decodeStage2Fault h c).ipa = some region ∧
    region.type = .mmio) ∧ (hvMmioHandleFault h c (decodeStage2Fault h c)).1 = hvMmioOk

/-- The guest goes on behind the instruction that trapped. -/
structure GoesOn (h : Hyp P) (c : VcpuIdx P) (i : VmIdx P) (h' : Hyp P) : Prop where
  served : Served h c i
  current : h'.scheduler.curVcpu = some c
  running : (h'.vcpu c).state = .running
  elr : h'.frame.elrHyp = h.frame.elrHyp + if hsrIl h.frame.hsr ≠ 0 then 4 else 2

/-- Another vCPU has the CPU, with its own registers: a guest that could run, or the idle one. -/
structure TakesOver (h : Hyp P) (c j : VcpuIdx P) (h' : Hyp P) : Prop where
  other : j ≠ c
  current : h'.scheduler.curVcpu = some j
  running : (h'.vcpu j).state = .running
  loaded : h'.live = (h.vcpu j).context.toCpu
  guest : (∃ i : VmIdx P, (h.vcpu i.castSucc).state = .runnable) →
    j ≠ hvIdleVcpuIdx P ∧ (h.vcpu j).state = .runnable
  idle : (∀ i : VmIdx P, (h.vcpu i.castSucc).state ≠ .runnable) → j = hvIdleVcpuIdx P

/-- The guest has exited, and the physical timer is set for the guests that are left. -/
structure GivesUp (h : Hyp P) (c : VcpuIdx P) (i : VmIdx P) (h' : Hyp P) : Prop where
  refused : ¬ Served h c i
  exited : (h'.vcpu c).state = .exited
  timer : (h'.vcpu c).timer.enabled = false
  rearmed : Covered h'.sched.deadlines (h.sysClo 0) h'.alarm
  successor : ∃ j, TakesOver h c j h'

theorem GoesOn.not_givesUp (hg : GoesOn h c i h') : ¬ GivesUp h c i h' :=
  fun hu => hu.refused hg.served

theorem served_iff (hvm : (h.vcpu c).vm = some i) :
    Served h c i ↔ (hvMmioHandleFault h c (decodeStage2Fault h c)).1 = hvMmioOk := by
  refine ⟨And.right, fun hok => ⟨?_, hok⟩⟩
  by_contra hn
  refine hvMmioHandleFault_unserved hvm (fun region hf ht => hn ⟨region, hf, ht⟩) hok

end Outcomes

section Choice

/-- Without a vCPU that runs, the choice falls on a ready guest if there is one. -/
theorem Sched.choose_cur {s : Sched P} (hs : (s.status s.cur).state ≠ .running) :
    ((∃ i : VmIdx P, (s.status i.castSucc).state = .runnable) →
      s.choose.cur ≠ hvIdleVcpuIdx P ∧ (s.status s.choose.cur).state = .runnable) ∧
    ((∀ i : VmIdx P, (s.status i.castSucc).state ≠ .runnable) →
      s.choose.cur = hvIdleVcpuIdx P) := by
  have hstatus (k : VcpuIdx P) : s.demote.status k = s.status k :=
    s.demote_status_of_not_running fun he => he ▸ hs
  change (_ → s.demote.pick.getD (hvIdleVcpuIdx P) ≠ _ ∧ _) ∧
    (_ → s.demote.pick.getD (hvIdleVcpuIdx P) = _)
  rcases hp : s.demote.pick with - | j
  · refine ⟨fun ⟨i, hi⟩ => ?_, fun _ => rfl⟩
    have hready := s.demote.ready_of_runnable (castSucc_ne_idle i) ((hstatus _).symm ▸ hi)
    rw [find?_ring_none hp i.castSucc] at hready
    cases hready
  · obtain ⟨hj, hrun⟩ := Sched.pick_some _ hp
    rw [hstatus] at hrun
    refine ⟨fun _ => ⟨hj, ?_⟩, fun hnone => ?_⟩
    · rw [Sched.choose, hp]
      exact hrun
    · obtain ⟨i, rfl⟩ := eq_castSucc_of_ne_idle hj
      exact absurd hrun (hnone i)

end Choice

section Handling
variable (hs : Settled b c h.toCore) (hc : c ≠ hvIdleVcpuIdx P)
include hs

theorem request_abort (hf : IsAbort h.frame) : request h = abortRequest h c := by
  rw [request, if_neg (by rw [hf.1]; decide), hs.index]
  rcases hf.2 with hec | hec <;>
    rw [if_neg (by rw [hec]; decide), if_neg (by rw [hec]; decide)]

include hc

theorem GoesOn.of_reacts (hf : IsAbort h.frame)
    (hserved : Served h c i) (ho : Outcome b c (Resumed h.live) h.toCore h'.toCore)
    (hr : Reacts h .resume (rearmTick h .resume) h') : GoesOn h c i h' := by
  have hcur : h'.scheduler.curVcpu = some c := Eq.trans hr.switched.core hs.current
  have hrun : (h'.vcpu c).state = .running := by
    have hstate := congrArg (fun s : Sched P => (s.status c).state) hr.sched
    exact hstate.trans hs.running
  refine ⟨hserved, hcur, hrun, ?_⟩
  obtain ⟨-, -, hframe⟩ := ho.own hc (by rw [hrun]; simp)
  rw [Registers.context_current (r := h'.registers) hcur] at hframe
  change ResumedFrame h.frame h'.frame at hframe
  rw [ResumedFrame, if_neg (by rw [hf.1]; decide)] at hframe
  rcases hf.2 with hec | hec <;>
    rw [if_neg (by rw [hec]; decide), if_neg (by rw [hec]; decide)] at hframe
  all_goals
    obtain ⟨-, g, -, hg⟩ := hframe
    rw [hg]
    rfl

theorem GivesUp.of_reacts (hrefused : ¬ Served h c i) {R : CpuContext → Prop}
    (ho : Outcome b c R h.toCore h'.toCore) (hr : Reacts h .stop (rearmTick h .stop) h') :
    GivesUp h c i h' := by
  obtain ⟨j, hj⟩ := ho.settled
  have hcur : h.sched.cur = c := hs.index
  have hserve (k : VcpuIdx P) : (h.sched.serve .stop).status k =
      if k = c then { h.sched.status c with state := .exited, timer := ⟨false, 0, 0⟩ }
      else h.sched.status k := by
    rw [Sched.serve, Sched.set_status, hcur]
  have hexited : ((h.sched.serve .stop).status c).state = .exited := by
    rw [hserve, if_pos rfl]
  have hsched : h'.sched = (h.sched.serve .stop).choose := hr.sched
  obtain ⟨-, hne, hstatus⟩ := (h.sched.serve .stop).choose_of_not_runnable hc
    (fun _ => by rw [hexited]; simp) (by rw [hexited]; simp)
  rw [← hsched] at hne hstatus
  have hjc : j ≠ c := fun he => hne (he ▸ hj.index)
  have hchosen : (h.sched.serve .stop).choose.cur = j := hsched ▸ hj.index
  have hready (i : VmIdx P) : ((h.sched.serve .stop).status i.castSucc).state = .runnable ↔
      (h.vcpu i.castSucc).state = .runnable := by
    rw [hserve]
    split
    · rename_i he
      rw [he]
      apply iff_of_false (by simp)
      rw [hs.running]
      simp
    · rfl
  obtain ⟨hguest, hidle⟩ := Sched.choose_cur (s := h.sched.serve .stop)
    (by rw [Sched.serve_cur, hcur, hexited]; simp)
  rw [hchosen, hserve, if_neg hjc] at hguest
  rw [hchosen] at hidle
  refine ⟨hrefused, ?_, ?_, hr.rearmed rfl, j, hjc, hj.current, hj.running, ?_, ?_, ?_⟩
  · change (h'.sched.status c).state = _
    rw [hstatus, hexited]
  · change (h'.sched.status c).timer.enabled = _
    rw [hstatus, hserve, if_pos rfl]
  · have hlive := ho.others j hjc
    rw [Registers.context_current (r := h'.registers) hj.current] at hlive
    refine hlive.trans (if_neg fun he => hjc ?_)
    exact (Option.some.inj (hs.current.symm.trans he)).symm
  · rintro ⟨i, hi⟩
    exact hguest ⟨i, (hready i).mpr hi⟩
  · exact fun hnone => hidle fun i => mt (hready i).mp (hnone i)

/-- An abort is served or ends the guest; the handler returns in either case. -/
theorem hypHandleException_abort (hvm : (h.vcpu c).vm = some i) (hf : IsAbort h.frame) :
    ∃ h', hypHandleException h = .ok (.actionReturn, h') ∧
      Xor (GoesOn h c i h') (GivesUp h c i h') := by
  have hcore := toCore_traceException h
  have hframe := frame_traceException h
  obtain ⟨h', hr, -⟩ := handleGuestAbort_spec (h := traceException h) (hcore ▸ hs) hc
    (hframe.symm ▸ hf.2)
  have hexception : hypHandleException h = .ok (.actionReturn, h') := by
    rw [hypHandleException_lowerSync hf.1, handleLowerSync_abort (hframe.symm ▸ hf.2), hr]
  have ht : h.frame.exceptionType = hypExceptionIrq ∨
      h.frame.exceptionType = hypExceptionLowerSync ∧ IdleWaits c h.frame :=
    .inr ⟨hf.1, fun he => absurd he hc⟩
  have ho := hypHandleException_outcome hs ht hexception
  have hreacts := hypHandleException_reacts hs ht hexception
  rw [request_abort hs hf, abortRequest] at hreacts
  refine ⟨h', hexception, ?_⟩
  by_cases hserved : Served h c i
  · rw [if_pos ((served_iff hvm).mp hserved)] at hreacts
    have hgoes := GoesOn.of_reacts hs hc hf hserved ho hreacts
    exact .inl ⟨hgoes, hgoes.not_givesUp⟩
  · rw [if_neg (mt (served_iff hvm).mpr hserved)] at hreacts
    exact .inr ⟨GivesUp.of_reacts hs hc hserved ho hreacts, fun hgoes => hserved hgoes.served⟩

end Handling

/-- The region of an address is that of its page. -/
theorem findRegion_page {vm : HvVm} (ht : RegionTable vm.regions) {page ipa : HvIpa}
    (hpage : page.toNat = ipa.toNat / 4096 * 4096) :
    hvVmFindRegion vm page = hvVmFindRegion vm ipa := by
  apply Option.ext
  intro r
  rw [hvVmFindRegion, hvVmFindRegion, ht.find_eq_some_iff, ht.find_eq_some_iff, hpage]
  exact and_congr_right fun hr => (ht.valid r hr).page_mem_span

/-- An abort of a guest always ends in one of two ways: the guest goes on behind the instruction, or
it has exited and another vCPU has the CPU. It never repeats the instruction. In a region table the
page of the address decides about the region. -/
theorem abort_two_outcomes (b : Boot P) (ts : List Trap) (r : RunState P) (c : VcpuIdx P)
    (i : VmIdx P) (t : Trap) (hrun : b.run ts = some r)
    (hcur : r.hyp.scheduler.curVcpu = some c) (hvm : (r.hyp.vcpu c).vm = some i)
    (hf : IsAbort t.frame) :
    let h := takeTrap r.hyp t
    (decodeStage2Fault h c).ipa.toNat = abortIpa t.frame ∧
      (∃ h', hypHandleException h = .ok (.actionReturn, h') ∧
        Xor (GoesOn h c i h') (GivesUp h c i h') ∧
        (h'.scheduler.curVcpu = some c → h'.frame.elrHyp ≠ t.frame.elrHyp)) ∧
      ∀ (vm : HvVm) (m : TablePools) (id : ℕ) (vmid : BitVec 32) (rs : List HvVmRegion),
        (hvVmInit P vm m id vmid).1 = hvVmOk →
        let vm' := (addRegions (hvVmInit P vm m id vmid).2.1 rs).2
        ∀ page ipa : HvIpa, page.toNat = ipa.toNat / 4096 * 4096 →
          hvVmFindRegion vm' page = hvVmFindRegion vm' ipa := by
  intro h
  obtain ⟨k, hs⟩ := (b.run_running hrun).settled
  obtain rfl : k = c := Option.some.inj (hs.current.symm.trans hcur)
  have hk : k ≠ hvIdleVcpuIdx P := by
    rintro rfl
    rw [hs.roster.idle_vm] at hvm
    cases hvm
  refine ⟨toNat_ipa (h := h) hf, ?_, ?_⟩
  · obtain ⟨h', hr, hxor⟩ := hypHandleException_abort (hs.takeTrap t) hk hvm hf
    refine ⟨h', hr, hxor, fun hback => ?_⟩
    rcases hxor with ⟨hgoes, -⟩ | ⟨hgives, -⟩
    · rw [hgoes.elr]
      change t.frame.elrHyp + _ ≠ t.frame.elrHyp
      split <;> simp
    · obtain ⟨j, hj⟩ := hgives.successor
      exact absurd (Option.some.inj (hj.current.symm.trans hback)) hj.other
  · intro vm m id vmid rs hinit vm' page ipa hpage
    exact findRegion_page ((hvVmInit_table hinit).addRegions rs) hpage

/-- A load outside all regions of the guest. -/
def strayLoadTrap : Trap :=
  { hypercallTrap 0 0 with
    frame := { zeroHypState with
      exceptionType := hypExceptionLowerSync
      hsr := hsrEcDataAbortLower <<< 26 } }

/-- The first guest makes a stray access. -/
theorem abort_two_outcomes_stray : ∃ r h', (twoGuests 0).run [] = some r ∧
    hypHandleException (takeTrap r.hyp strayLoadTrap) = .ok (.actionReturn, h') ∧
    Xor (GoesOn (takeTrap r.hyp strayLoadTrap) 0 (firstVm _) h')
      (GivesUp (takeTrap r.hyp strayLoadTrap) 0 (firstVm _) h') := by
  have heval : ((twoGuests 0).run []).map (fun r =>
      (r.hyp.scheduler.curVcpu, (r.hyp.vcpu 0).vm)) = some (some 0, some (firstVm _)) := by
    decide +kernel
  obtain ⟨r, hr, he⟩ := Option.map_eq_some_iff.mp heval
  obtain ⟨hcur, hvm⟩ := Prod.mk.inj he
  obtain ⟨-, ⟨h', hh', hxor, -⟩, -⟩ :=
    abort_two_outcomes (twoGuests 0) [] r 0 (firstVm _) strayLoadTrap hr hcur hvm (by decide)
  exact ⟨r, h', hr, hh', hxor⟩

end PiPervisor.Hv
