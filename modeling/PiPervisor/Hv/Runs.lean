import PiPervisor.Hv.BootSpec

/-! # Runs of the booted machine

One step is a trap and its handler; what a step preserves holds in every run.
Besides the invariant of the machine this is the history of each guest: its
registers are those of its own last trap, up to what the handler of that trap
may change, or those it was entered with if it has never trapped.
-/
namespace PiPervisor.Hv
open Stage2 Library.BitField Library.ContextSwitch

variable {P : Platform} {b : Boot P} {c : VcpuIdx P} {h h' : Hyp P} {t : Trap}

section Exceptions

theorem hypHandleException_irq (ht : h.frame.exceptionType = hypExceptionIrq) :
    hypHandleException h = handleIrq (traceException h) := by
  rw [hypHandleException, frame_traceException, ht]
  rfl

theorem hypHandleException_lowerSync (ht : h.frame.exceptionType = hypExceptionLowerSync) :
    hypHandleException h = handleLowerSync (traceException h) := by
  rw [hypHandleException, frame_traceException, ht]
  rfl

/-- The idle vCPU traps on its WFI only. -/
def IdleWaits (c : VcpuIdx P) (f : HypExceptState) : Prop :=
  c = hvIdleVcpuIdx P → hsrEc f.hsr = hsrEcWfiWfe ∧ hsrIss f.hsr &&& hsrWfiWfeIsWfe = 0

theorem IdleWaits.guest {f : HypExceptState} (hw : IdleWaits c f)
    (hec : hsrEc f.hsr ≠ hsrEcWfiWfe) : c ≠ hvIdleVcpuIdx P :=
  fun hc => hec (hw hc).1

section LowerSync
variable (ht : h.frame.exceptionType = hypExceptionLowerSync)
include ht

theorem resumed_hvc (hec : hsrEc h.frame.hsr = hsrEcHvcA32) {x : CpuContext}
    (hx : WithResult h.toCore x) : Resumed h.live x := by
  obtain ⟨v, rfl⟩ := hx
  refine ⟨rfl, rfl, ?_⟩
  change ResumedFrame h.frame _
  rw [ResumedFrame, if_neg (by rw [ht]; decide), if_pos hec]
  exact ⟨v, rfl⟩

theorem resumed_wfi (hec : hsrEc h.frame.hsr = hsrEcWfiWfe) :
    Resumed h.live { h.live with
      frame := { h.frame with elrHyp := h.frame.elrHyp + instrLen h.frame.hsr } } := by
  refine ⟨rfl, rfl, ?_⟩
  change ResumedFrame h.frame _
  rw [ResumedFrame, if_neg (by rw [ht]; decide), if_neg (by rw [hec]; decide), if_pos hec]

theorem resumed_mmio (hec : hsrEc h.frame.hsr = hsrEcDataAbortLower) {g : HypExceptState}
    (hg : MmioCompleted h.frame g) :
    Resumed h.live { h.live with
      frame := { g with elrHyp := h.frame.elrHyp + instrLen h.frame.hsr } } := by
  refine ⟨rfl, rfl, ?_⟩
  change ResumedFrame h.frame _
  rw [ResumedFrame, if_neg (by rw [ht]; decide), if_neg (by rw [hec]; decide),
    if_neg (by rw [hec]; decide)]
  exact ⟨hec, g, hg, rfl⟩

end LowerSync

/-- A synchronous exception that returns. -/
theorem handleLowerSync_outcome (hs : Settled b c h.toCore)
    (ht : h.frame.exceptionType = hypExceptionLowerSync) (hw : IdleWaits c h.frame)
    (hr : handleLowerSync h = .ok (.actionReturn, h')) :
    Outcome b c (Resumed h.live) h.toCore h'.toCore := by
  by_cases hhvc : hsrEc h.frame.hsr = hsrEcHvcA32
  · have hc := hw.guest (by rw [hhvc]; decide)
    have ho := handleLowerSync_hvc_outcome hs hc hhvc hr
    exact ho.mono fun _ hx => resumed_hvc ht hhvc hx.withResult
  by_cases hwfi : hsrEc h.frame.hsr = hsrEcWfiWfe ∧ hsrIss h.frame.hsr &&& hsrWfiWfeIsWfe = 0
  · obtain ⟨h1, h1r, ho⟩ := hvSchedulerHandleWfi_spec hs
    rw [handleLowerSync_wfi hwfi.1 hwfi.2, h1r] at hr
    cases hr
    apply ho.mono
    intro x hx
    rw [hx]
    exact resumed_wfi ht hwfi.1
  by_cases habort : hsrEc h.frame.hsr = hsrEcPrefetchAbortLower ∨
      hsrEc h.frame.hsr = hsrEcDataAbortLower
  · have hc := hw.guest (by rcases habort with he | he <;> rw [he] <;> decide)
    obtain ⟨h1, h1r, ho⟩ := handleGuestAbort_spec hs hc habort
    rw [handleLowerSync_abort habort, h1r] at hr
    cases hr
    apply ho.mono
    intro x hx
    obtain ⟨hdata, g, hg, rfl⟩ := hx
    exact resumed_mmio ht hdata hg
  exact absurd hr (handleLowerSync_other hhvc hwfi habort h')

/-- Every exception that returns, from a state in which a vCPU runs. -/
theorem hypHandleException_outcome (hs : Settled b c h.toCore)
    (ht : h.frame.exceptionType = hypExceptionIrq ∨
      h.frame.exceptionType = hypExceptionLowerSync ∧ IdleWaits c h.frame)
    (hr : hypHandleException h = .ok (.actionReturn, h')) :
    Outcome b c (Resumed h.live) h.toCore h'.toCore := by
  have hcore := toCore_traceException h
  rcases ht with ht | ⟨ht, hw⟩
  · rw [hypHandleException_irq ht] at hr
    have ho := handleIrq_outcome (hcore ▸ hs) hr
    rw [hcore] at ho
    apply ho.mono
    intro x hx
    rw [hx]
    refine ⟨rfl, rfl, ?_⟩
    change ResumedFrame h.frame h.frame
    rw [ResumedFrame, if_pos ht]
  · rw [hypHandleException_lowerSync ht] at hr
    have ho := handleLowerSync_outcome (hcore ▸ hs) ((frame_traceException h).symm ▸ ht)
      ((frame_traceException h).symm ▸ hw) hr
    rwa [hcore] at ho

end Exceptions

section Traps

/-- The registers that a trap saves. -/
def Trap.context (t : Trap) : CpuContext := ⟨t.frame, t.banked, t.vbar⟩

/-- Running between two traps changes the registers of the vCPU that runs. -/
theorem registers_takeTrap (h : Hyp P) (t : Trap) :
    (takeTrap h t).registers = h.registers.write t.context := rfl

theorem Settled.takeTrap (hs : Settled b c h.toCore) (t : Trap) :
    Settled b c (takeTrap h t).toCore :=
  ⟨⟨hs.current, hs.index,
    ⟨hs.roster.guest_id, hs.roster.guest_vm, hs.roster.idle_id, hs.roster.idle_vm⟩, hs.others,
    hs.idle, hs.unused,
    ⟨hs.controls.twi, hs.controls.vm, hs.controls.vttbr, hs.controls.other⟩⟩,
    hs.running, hs.working, hs.synced⟩

theorem Settled.idleWaits (hs : Settled b c h.toCore)
    (ht : h.scheduler.curVcpu = some (hvIdleVcpuIdx P) → hsrEc t.frame.hsr = hsrEcWfiWfe ∧
      hsrIss t.frame.hsr &&& hsrWfiWfeIsWfe = 0) : IdleWaits c t.frame :=
  fun hc => ht (hs.current.trans (congrArg some hc))

/-- A trap and its handler, as one step of the machine. -/
theorem takeTrap_outcome (hs : Settled b c h.toCore) (hcan : canTrap h t)
    (hr : hypHandleException (takeTrap h t) = .ok (.actionReturn, h')) :
    Outcome b c (Resumed t.context) (takeTrap h t).toCore h'.toCore :=
  hypHandleException_outcome (hs.takeTrap t) (hcan.imp_right fun ht => ⟨ht.1, hs.idleWaits ht.2⟩) hr

/-- All that a step of a run does. -/
theorem RunState.step_eq_some {r r' : RunState P} (h : r.step t = some r') :
    ∃ c h', r.hyp.scheduler.curVcpu = some c ∧ canTrap r.hyp t ∧
      hypHandleException (takeTrap r.hyp t) = .ok (.actionReturn, h') ∧
      r' = ⟨h', Function.update r.lastTrap c (some t)⟩ := by
  rw [RunState.step] at h
  split at h
  · cases h
  · rename_i c hc
    split at h
    · rename_i hcan
      split at h
      · rename_i h' hr
        exact ⟨c, h', hc, hcan, hr, (Option.some.inj h).symm⟩
      · cases h
    · cases h

end Traps

section Invariant

/-- The registers of a guest are those of its last trap, or those it starts with. -/
def Continues (b : Boot P) (i : VmIdx P) (g : GuestBoot) (r : RunState P) : Prop :=
  match r.lastTrap i.castSucc with
  | none => r.hyp.registers.context i.castSucc = startContext b i g
  | some t => Resumed t.context (r.hyp.registers.context i.castSucc)

/-- What holds of every state of a run. -/
structure Running (b : Boot P) (r : RunState P) : Prop where
  settled : ∃ c, Settled b c r.hyp.toCore
  vms : VmsBooted r.hyp.toCore
  continues : ∀ i g, b.guests i = some g → (r.hyp.vcpu i.castSucc).state ≠ .exited →
    Continues b i g r
  unused : ∀ i, b.guests i = none → r.lastTrap i.castSucc = none

/-- Work on the devices alone keeps the invariant. -/
theorem Running.setHyp {r : RunState P} {h' : Hyp P} (hi : Running b r)
    (hcore : h'.toCore = r.hyp.toCore) : Running b { r with hyp := h' } := by
  refine ⟨?_, ?_, ?_, hi.unused⟩ <;> dsimp only
  · rw [hcore]
    exact hi.settled
  · rw [hcore]
    exact hi.vms
  · intro i g hg hex
    rw [hcore] at hex
    rw [Continues]
    dsimp only
    rw [hcore]
    exact hi.continues i g hg hex

/-- No step changes a register of a vCPU that did not trap. -/
theorem Running.others {r r' : RunState P} (hi : Running b r) (h : r.step t = some r')
    (hc : r.hyp.scheduler.curVcpu = some c) (k : VcpuIdx P) (hk : k ≠ c) :
    r'.hyp.registers.context k = r.hyp.registers.context k := by
  obtain ⟨c', h', hc', hcan, hr, rfl⟩ := RunState.step_eq_some h
  obtain rfl : c' = c := Option.some.inj (hc'.symm.trans hc)
  obtain ⟨j, hs⟩ := hi.settled
  obtain rfl : j = c' := Option.some.inj (hs.current.symm.trans hc)
  have ho := takeTrap_outcome hs hcan hr
  change h'.registers.context k = _
  rw [ho.others k hk, registers_takeTrap]
  apply Registers.context_write_of_ne
  exact fun he => hk (Option.some.inj (he.symm.trans hc))

theorem Running.step {r r' : RunState P} (hi : Running b r) (h : r.step t = some r') :
    Running b r' := by
  have hothers := fun c hc => hi.others h (c := c) hc
  obtain ⟨c, h', hc, hcan, hr, rfl⟩ := RunState.step_eq_some h
  obtain ⟨j, hs⟩ := hi.settled
  obtain rfl : j = c := Option.some.inj (hs.current.symm.trans hc)
  have ho := takeTrap_outcome hs hcan hr
  refine ⟨ho.settled, ?_, ?_, ?_⟩
  · exact (hi.vms.keepsTables rfl rfl : VmsBooted (takeTrap r.hyp t).toCore).keepsTables
      ho.keeps.vms ho.keeps.pools
  · intro i g hg hex
    rw [Continues]
    dsimp only at hex ⊢
    by_cases hi' : i.castSucc = j
    · rw [hi', Function.update_self]
      exact ho.own (hi' ▸ castSucc_ne_idle i) (hi' ▸ hex)
    · rw [Function.update_of_ne hi', hothers j hc _ hi']
      exact hi.continues i g hg (mt (ho.exited _ hi').mpr hex)
  · intro i hg
    have hne : i.castSucc ≠ j := (hs.unused i hg).2.symm
    dsimp only
    rw [Function.update_of_ne hne]
    exact hi.unused i hg

/-- Every state of every run satisfies the invariant. -/
theorem Boot.run_running {ts : List Trap} {r : RunState P} (h : b.run ts = some r) :
    Running b r := by
  obtain ⟨h0, h0r, hs, hvms, hctx⟩ := b.main_spec
  have hinit : Running b { hyp := h0, lastTrap := fun _ => none } :=
    ⟨⟨0, hs⟩, hvms, fun i g hg _ => hctx i g hg, fun _ _ => rfl⟩
  rw [Boot.run, h0r] at h
  exact Library.Transition.run_invariant (fun _ _ _ hi hstep => hi.step hstep) hinit h

/-- The invariant goes on to hold in a run that goes on. -/
theorem Running.run {r r' : RunState P} {ts : List Trap} (hi : Running b r)
    (h : Library.Transition.run RunState.step r ts = some r') : Running b r' :=
  Library.Transition.run_invariant (fun _ _ _ hi hstep => hi.step hstep) hi h

theorem Boot.run_append {r r' : RunState P} {ts ts' : List Trap} (h : b.run ts = some r)
    (h' : Library.Transition.run RunState.step r ts' = some r') : b.run (ts ++ ts') = some r' := by
  rw [Boot.run] at h ⊢
  rcases hm : b.main with e | h0 <;> rw [hm] at h
  · cases h
  · dsimp only at h ⊢
    rw [Library.Transition.run_append, h]
    exact h'

/-- The boot itself is a run. -/
theorem Boot.run_nil (b : Boot P) : ∃ r, b.run [] = some r := by
  obtain ⟨h, hr, -⟩ := b.main_spec
  refine ⟨⟨h, fun _ => none⟩, ?_⟩
  rw [Boot.run, hr]
  rfl

end Invariant

section Example

def zeroSystemRegs : SystemRegs := ⟨0, 0, 0, 0, 0⟩

/-- Whatever is read of the machine that a handler leaves, the handler has left it. -/
theorem exists_ok_of_toOption {β : Type} {res : HypResult P} {action : HypExceptAction}
    {f : Hyp P → β} {y : β}
    (h : res.toOption.map (fun p => (p.1, f p.2)) = some (action, y)) :
    ∃ h', res = .ok (action, h') ∧ f h' = y := by
  rcases res with e | ⟨a, h'⟩
  · cases h
  · obtain ⟨rfl, rfl⟩ := Prod.mk.inj (Option.some.inj h)
    exact ⟨h', rfl, rfl⟩

/-- Memory at reset: zeros, but for SWIO in HCR and the period of the hypervisor's timer. -/
def resetMemory (vbar : BitVec 32) : Hyp Platform.twoSlots where
  scheduler :=
    { vm := fun _ => ⟨0, 0, [], ⟨0, 0, 0, 0, 0, 0⟩⟩
      vcpus := fun _ => ⟨0, none, .idle, initialContext 0 0 0, 0, 0, ⟨false, 0, 0⟩⟩
      curIdx := 0
      curVcpu := none }
  stage2TablePools := fun _ => 0
  cpu := ⟨hcrSwio, vbar, 0, 0, zeroBankedRegs, zeroSystemRegs⟩
  frame := zeroHypState
  vuarts := fun _ => ⟨0, 0, 0, 0, 0, 0, 0, 0, 0, 0⟩
  counter := 0
  hypExceptVerbose := false
  hvSchedulerVerbose := false
  armTimer := ⟨0, 0, 0, 0, 0⟩
  irq := ⟨0, 0⟩
  genTimer := ⟨100, 0, 0, 0⟩
  uart := ⟨[], []⟩
  sysClo := fun _ => 0
  switches := []

/-- Two guests, the first of them without a timer of its own. -/
def twoGuests (vbar : BitVec 32) : Boot Platform.twoSlots where
  reset := resetMemory vbar
  hcr_reset := rfl
  routeIrqs := true
  guests := fun i => some ⟨0x20000, 0x2f000, hypLowerSvcCpsr,
    if i = firstVm _ then none else some (0, 1000)⟩
  first := rfl
  rearm := true

/-- A hypercall at tick 500. -/
def hypercallTrap (number argument : BitVec 32) : Trap where
  frame := { zeroHypState with
    exceptionType := hypExceptionLowerSync
    hsr := hsrEcHvcA32 <<< 26
    r := Function.update (Function.update (fun _ => 0) 0 number) 1 argument }
  banked := zeroBankedRegs
  vbar := 0x20000
  system := zeroSystemRegs
  sysClo := fun _ => 500
  maskIrq := 0
  basePending := 0
  cnthpCtl := 0
  core0IrqSource := 0
  received := []

/-- A BCM timer interrupt. -/
def timerTrap (now : BitVec 32) : Trap :=
  { hypercallTrap 0 0 with
    frame := { zeroHypState with exceptionType := hypExceptionIrq }
    sysClo := fun _ => now
    maskIrq := 1
    basePending := 1 }

/-- The first guest yields to the second, which waits for its timer. -/
theorem twoGuests_runs : ∃ r, (twoGuests 0).run [hypercallTrap hypercallYield 0,
    hypercallTrap hypercallTimerDelayTicks 100] = some r :=
  Option.isSome_iff_exists.mp (by decide +kernel)

end Example

end PiPervisor.Hv
