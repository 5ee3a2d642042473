import PiPervisor.Hv.HandlerSpec

/-! # Synchronous exceptions of a guest

The hypercalls, the trapped WFI and the dispatch on the syndrome. Each of these
returns to a vCPU, or it is one of the few that the dispatcher halts on.
-/
namespace PiPervisor.Hv
open Stage2 Library.BitField Library.ContextSwitch

variable {P : Platform} {b : Boot P} {c j : VcpuIdx P} {m : Core P}

section Hypercalls
variable {h : Hyp P}

/-- The registers after a hypercall: at most r0 has changed. -/
def WithResult (m : Core P) (x : CpuContext) : Prop :=
  ∃ v, x = { m.live with frame := { m.frame with r := Function.update m.frame.r 0 v } }

/-- The registers after a hypercall with this result. -/
def Core.withR0 (m : Core P) (v : BitVec 32) : CpuContext :=
  { m.live with frame := { m.frame with r := Function.update m.frame.r 0 v } }

theorem Core.withR0_self (m : Core P) : m.withR0 (m.frame.r 0) = m.live := by
  rw [Core.withR0, Function.update_eq_self]
  rfl

theorem Core.withR0_r0 (m : Core P) (v : BitVec 32) : (m.withR0 v).frame.r 0 = v := by
  change Function.update m.frame.r 0 v 0 = v
  rw [Function.update_self]

/-- The end of a hypercall that stores its result and returns to the guest. -/
theorem Serves.returnsResult {h1 : Hyp P} (h : Serves b c m h1.toCore) (hc : c ≠ hvIdleVcpuIdx P)
    (hrun : (h1.vcpu c).state = .running) (hsync : Synced h1.toCore c) (hlive : h1.live = m.live)
    (v : BitVec 32) : Outcome b c (· = m.withR0 v) m (setR0 h1 v).toCore := by
  have hframe : h1.frame = m.frame := congrArg CpuContext.frame hlive
  have hs := h.setFrame { h1.frame with r := Function.update h1.frame.r 0 v }
  apply hs.returns hc hrun hsync
  change { h1.live with frame := { h1.frame with r := Function.update h1.frame.r 0 v } } = _
  rw [hlive, hframe]
  rfl

/-- A hypercall that changes no vCPU stores its result and returns. -/
theorem Settled.returnsResult {h1 : Hyp P} (hs : Settled b c m) (hcore : h1.toCore = m)
    (hc : c ≠ hvIdleVcpuIdx P) (v : BitVec 32) :
    Outcome b c (· = m.withR0 v) m (setR0 h1 v).toCore := by
  subst hcore
  exact (Serves.refl hs.toHandling).returnsResult hc hs.running hs.synced rfl v

theorem doExit_spec (hs : Settled b c h.toCore) (hc : c ≠ hvIdleVcpuIdx P)
    {R : CpuContext → Prop} :
    ∃ h', doExit h = (.actionReturn, h') ∧ Outcome b c R h.toCore h'.toCore := by
  have hexit : doExit h = stopCurrentGuestVcpu (trace h "hyp_handle_guest_hypercall"
      "guest exiting, status: %d\n" [.word (h.frame.r 1)]) c := by
    rw [doExit, hvSchedulerGetCurrent, hs.current]
    rfl
  rw [hexit]
  exact stopCurrentGuestVcpu_spec (.refl hs.toHandling) hc

/-- Claiming and completing change the current vCPU's words and update its line. -/
theorem virqCall_spec (hs : Settled b c h.toCore) (hc : c ≠ hvIdleVcpuIdx P) {v : HvVcpu P}
    (hid : v.id = (h.vcpu c).id) (hvm : v.vm = (h.vcpu c).vm)
    (hctx : v.context = (h.vcpu c).context) (hst : v.state = (h.vcpu c).state) (r : BitVec 32) :
    Outcome b c (· = h.toCore.withR0 r) h.toCore
      (setR0 (hvVirqSync (h.setVcpu c v) (some c)) r).toCore := by
  have hserves := ((Serves.refl hs.toHandling).setCurrent hc hid hvm hctx).syncVirq c
  have hcore : (hvVirqSync (h.setVcpu c v) (some c)).toCore =
      (h.toCore.setVcpu c v).syncVirq c := toCore_hvVirqSync ..
  refine Serves.returnsResult (hcore ▸ hserves) hc ?_ ?_ ?_ r
  · rw [hcore]
    change ((h.toCore.setVcpu c v).vcpu c).state = _
    rw [Core.vcpu_setVcpu_self, hst, hs.running]
  · rw [hcore]
    exact synced_syncVirq _ _
  · rw [hcore]
    rfl

/-- What a change of the interrupt words leaves alone. -/
structure SameRecord (v v' : HvVcpu P) : Prop where
  id : v'.id = v.id
  vm : v'.vm = v.vm
  context : v'.context = v.context
  state : v'.state = v.state

theorem hvVirqClaim_sameRecord (v : HvVcpu P) : SameRecord v (hvVirqClaim v).2 := by
  rw [hvVirqClaim]
  split
  · exact ⟨rfl, rfl, rfl, rfl⟩
  · split <;> exact ⟨rfl, rfl, rfl, rfl⟩

theorem hvVirqComplete_sameRecord (v : HvVcpu P) (virq : BitVec 32) :
    SameRecord v (hvVirqComplete v virq).2 := by
  rw [hvVirqComplete]
  split
  · exact ⟨rfl, rfl, rfl, rfl⟩
  · split <;> exact ⟨rfl, rfl, rfl, rfl⟩

/-- ABI result of a completion. -/
def completeResult (res : ℤ) : BitVec 32 := if res = 0 then hypercallSuccess else hypercallErrInvalid

theorem doVirqClaim_spec (hs : Settled b c h.toCore) (hc : c ≠ hvIdleVcpuIdx P) :
    ∃ h', doVirqClaim h = (.actionReturn, h') ∧
      Outcome b c (· = h.toCore.withR0 (claimResult (hvVirqClaim (h.vcpu c)).1)) h.toCore
        h'.toCore := by
  have hr := hvVirqClaim_sameRecord (h.vcpu c)
  rw [doVirqClaim, hvSchedulerGetCurrent, hs.current]
  exact ⟨_, rfl, virqCall_spec hs hc hr.id hr.vm hr.context hr.state _⟩

theorem doVirqComplete_spec (hs : Settled b c h.toCore) (hc : c ≠ hvIdleVcpuIdx P) :
    ∃ h', doVirqComplete h = (.actionReturn, h') ∧
      Outcome b c (· = h.toCore.withR0 (completeResult (hvVirqComplete (h.vcpu c) (h.frame.r 1)).1))
        h.toCore h'.toCore := by
  have hr := hvVirqComplete_sameRecord (h.vcpu c) (h.frame.r 1)
  rw [doVirqComplete, hvSchedulerGetCurrent, hs.current]
  exact ⟨_, rfl, virqCall_spec hs hc hr.id hr.vm hr.context hr.state _⟩

/-- The frequency is a division by the period in 32 bits, which can be zero. -/
theorem doTimerGetFreq_spec (hs : Settled b c h.toCore) (hc : c ≠ hvIdleVcpuIdx P) :
    match hvVcpuTimerGetFrequency (h.vcpu c) with
    | none => doTimerGetFreq h = .error .divisionByZero
    | some frequency => doTimerGetFreq h = .ok (.actionReturn, setR0 h frequency) := by
  have hidle : hvSchedulerIsIdleVcpu h (some c) = false := by
    rw [← Bool.not_eq_true, hs.roster.isIdleVcpu]
    exact hc
  rw [doTimerGetFreq, hvSchedulerGetCurrent, hs.current]
  dsimp only
  rw [hidle, if_neg Bool.false_ne_true]
  rcases hvVcpuTimerGetFrequency (h.vcpu c) with - | frequency <;> rfl

/-- A delay blocks the guest after its result is in its frame. -/
theorem doTimerDelayTicks_spec (hs : Settled b c h.toCore) (hc : c ≠ hvIdleVcpuIdx P) :
    ∃ h', doTimerDelayTicks h = (.actionReturn, h') ∧
      Outcome b c (· = h.toCore.withR0 hypercallSuccess) h.toCore h'.toCore := by
  have hidle : hvSchedulerIsIdleVcpu h (some c) = false := by
    rw [← Bool.not_eq_true, hs.roster.isIdleVcpu]
    exact hc
  rw [doTimerDelayTicks, hvSchedulerGetCurrent, hs.current]
  dsimp only
  rw [hidle, if_neg Bool.false_ne_true]
  by_cases hz : h.frame.r 1 = 0
  · rw [if_pos hz]
    exact ⟨_, rfl, hs.returnsResult rfl hc _⟩
  · rw [if_neg hz]
    have hdelay (v : HvVcpu P) (now delay : BitVec 64) :
        (hvVcpuTimerDelay v now delay).id = v.id ∧ (hvVcpuTimerDelay v now delay).vm = v.vm ∧
          (hvVcpuTimerDelay v now delay).context = v.context := by
      rw [hvVcpuTimerDelay]
      split <;> exact ⟨rfl, rfl, rfl⟩
    obtain ⟨hid, hvm, hctx⟩ := hdelay (h.vcpu c) ((timSysGetTicks h).1.setWidth 64)
      ((h.frame.r 1).setWidth 64)
    have hserves := (Serves.refl hs.toHandling).setCurrent hc hid hvm hctx
    refine Serves.advance ?_ ?_
    · rw [toCore_setR0, toCore_hvVtimerRearmPhysical]
      exact hserves.setFrame _
    · intro _ _
      rw [toCore_setR0, toCore_hvVtimerRearmPhysical]
      rfl

theorem hypHandleGuestHypercall_unknown (hn : ¬ HypercallKnown (h.frame.r 0)) :
    hypHandleGuestHypercall h = .ok (.actionHalt, setR0 h hypercallErrUnknown) := by
  simp only [HypercallKnown, List.mem_cons, List.not_mem_nil, or_false, not_or] at hn
  obtain ⟨h0, h1, h2, h3, h4, h5, h6, h7, h8, h9, h10⟩ := hn
  simp only [hypHandleGuestHypercall, if_neg h0, if_neg h1, if_neg h2, if_neg h3, if_neg h4,
    if_neg h5, if_neg h6, if_neg h7, if_neg h8, if_neg h9, if_neg h10]

/-- The one known hypercall that can fail. -/
theorem hypHandleGuestHypercall_divides (hs : Settled b c h.toCore) (hc : c ≠ hvIdleVcpuIdx P)
    (hn : h.frame.r 0 = hypercallTimerGetFreq)
    (hdiv : hvVcpuTimerGetFrequency (h.vcpu c) = none) :
    hypHandleGuestHypercall h = .error .divisionByZero := by
  have hspec := doTimerGetFreq_spec hs hc
  rw [hdiv] at hspec
  rw [← hspec, hypHandleGuestHypercall]
  simp only [hn]
  rfl

/-- The calls that only compute a result. -/
def plainHypercalls : List (BitVec 32) :=
  [hypercallGetAbiVersion, hypercallGetFeatures, hypercallPutchar, hypercallGetHypIrqCount,
    hypercallTimerGetTicks, hypercallTimerGetFreq]

/-- The same for a guest, one case for each kind of call. -/
inductive Dispatched (h : Hyp P) (c : VcpuIdx P) : HypResult P → Prop
  | exit (hn : h.frame.r 0 = hypercallExit) : Dispatched h c (.ok (doExit h))
  | yield (hn : h.frame.r 0 = hypercallYield) : Dispatched h c (.ok (hvSchedulerYield h))
  | claim (hn : h.frame.r 0 = hypercallVirqClaim) : Dispatched h c (.ok (doVirqClaim h))
  | complete (hn : h.frame.r 0 = hypercallVirqComplete) : Dispatched h c (.ok (doVirqComplete h))
  | delay (hn : h.frame.r 0 = hypercallTimerDelayTicks) :
      Dispatched h c (.ok (doTimerDelayTicks h))
  | result {h1 : Hyp P} (v : BitVec 32) (hn : h.frame.r 0 ∈ plainHypercalls)
      (hcore : h1.toCore = h.toCore) (hirq : h1.irq = h.irq) (harm : h1.armTimer = h.armTimer)
      (hswitches : h1.switches = h.switches) : Dispatched h c (.ok (.actionReturn, setR0 h1 v))
  | divides (hn : h.frame.r 0 = hypercallTimerGetFreq)
      (hdiv : hvVcpuTimerGetFrequency (h.vcpu c) = none) : Dispatched h c (.error .divisionByZero)
  | unknown (hn : ¬ HypercallKnown (h.frame.r 0)) :
      Dispatched h c (.ok (.actionHalt, setR0 h hypercallErrUnknown))

theorem hypHandleGuestHypercall_dispatched (hs : Settled b c h.toCore)
    (hc : c ≠ hvIdleVcpuIdx P) : Dispatched h c (hypHandleGuestHypercall h) := by
  have hplain {number : BitVec 32} (hn : h.frame.r 0 = number) (hp : number ∈ plainHypercalls) :
      h.frame.r 0 ∈ plainHypercalls := hn ▸ hp
  have hcase := hypHandleGuestHypercall_cases h
  generalize hypHandleGuestHypercall h = result at hcase
  cases hcase with
  | getAbiVersion hn => exact .result _ (hplain hn (by decide)) rfl rfl rfl rfl
  | getFeatures hn => exact .result _ (hplain hn (by decide)) rfl rfl rfl rfl
  | exit hn => exact .exit hn
  | yield hn => exact .yield hn
  | putchar hn => exact .result _ (hplain hn (by decide)) rfl rfl rfl rfl
  | getHypIrqCount hn => exact .result _ (hplain hn (by decide)) rfl rfl rfl rfl
  | virqClaim hn => exact .claim hn
  | virqComplete hn => exact .complete hn
  | timerGetTicks hn => exact .result _ (hplain hn (by decide)) rfl rfl rfl rfl
  | timerGetFreq hn =>
    have hspec := doTimerGetFreq_spec hs hc
    rcases hfreq : hvVcpuTimerGetFrequency (h.vcpu c) with - | frequency <;>
      rw [hfreq] at hspec <;> rw [hspec]
    · exact .divides hn hfreq
    · exact .result _ (hplain hn (by decide)) rfl rfl rfl rfl
  | timerDelayTicks hn => exact .delay hn
  | unknown hn => exact .unknown hn

/-- The result that the ABI gives a call: a value of its own, or else success or an error. -/
def AbiResult (h : Hyp P) (c : VcpuIdx P) (v : BitVec 32) : Prop :=
  let number := h.frame.r 0
  if number = hypercallGetAbiVersion then v = hypercallAbiVersion
  else if number = hypercallGetFeatures then
    v = hypFeatureBase ||| hypFeatureVirq ||| hypFeatureTimer ||| hypFeatureUart
  else if number = hypercallPutchar then v = hypercallSuccess
  else if number = hypercallGetHypIrqCount then v = hypGetIrqCount h
  else if number = hypercallVirqClaim then v = claimResult (hvVirqClaim (h.vcpu c)).1
  else if number = hypercallVirqComplete then
    v = completeResult (hvVirqComplete (h.vcpu c) (h.frame.r 1)).1
  else if number = hypercallTimerGetTicks then v = (timSysGetTicks h).1
  else if number = hypercallTimerGetFreq then hvVcpuTimerGetFrequency (h.vcpu c) = some v
  else if number = hypercallTimerDelayTicks then v = hypercallSuccess
  else v ∈ [hypercallSuccess, hypercallErrUnknown, hypercallErrInvalid, hypercallErrNoPending]

/-- The registers after a call that returns. A yield leaves its number in r0. -/
def Answered (h : Hyp P) (c : VcpuIdx P) (x : CpuContext) : Prop :=
  ∃ v, x = h.toCore.withR0 v ∧
    if h.frame.r 0 = hypercallYield then v = hypercallYield else AbiResult h c v

theorem Answered.withResult {x : CpuContext} (hx : Answered h c x) : WithResult h.toCore x := by
  obtain ⟨v, rfl, -⟩ := hx
  exact ⟨v, rfl⟩

/-- The calls that only compute a result store the one that the ABI gives them. -/
theorem abiResult_of_plain (hs : Settled b c h.toCore) (hc : c ≠ hvIdleVcpuIdx P)
    (hn : h.frame.r 0 ∈ plainHypercalls) {h1 : Hyp P} {v : BitVec 32}
    (hr : hypHandleGuestHypercall h = .ok (.actionReturn, setR0 h1 v)) : AbiResult h c v := by
  have hstored {h2 : Hyp P} {w : BitVec 32}
      (he : hypHandleGuestHypercall h = .ok (.actionReturn, setR0 h2 w)) : v = w := by
    obtain ⟨-, heq⟩ := Prod.mk.inj (Except.ok.inj (hr.symm.trans he))
    have hr0 : (setR0 h1 v).frame.r 0 = (setR0 h2 w).frame.r 0 := by rw [heq]
    simpa only [setR0, Function.update_self] using hr0
  simp only [plainHypercalls, List.mem_cons, List.not_mem_nil, or_false] at hn
  rw [AbiResult]
  rw [hypHandleGuestHypercall] at hr hstored
  rcases hn with hn | hn | hn | hn | hn | hn <;> simp only [hn] at hr hstored ⊢
  · exact hstored rfl
  · exact hstored rfl
  · exact hstored rfl
  · exact hstored rfl
  · exact hstored rfl
  · have hspec := doTimerGetFreq_spec hs hc
    change doTimerGetFreq h = _ at hr
    change hvVcpuTimerGetFrequency (h.vcpu c) = some v
    rcases hfreq : hvVcpuTimerGetFrequency (h.vcpu c) with - | frequency <;>
      rw [hfreq] at hspec
    · cases hr.symm.trans hspec
    · exact congrArg some (hstored hspec).symm

/-- A known hypercall returns, with its result in r0, unless it divides by zero. -/
theorem hypHandleGuestHypercall_spec (hs : Settled b c h.toCore) (hc : c ≠ hvIdleVcpuIdx P)
    (hn : HypercallKnown (h.frame.r 0))
    (hdiv : h.frame.r 0 = hypercallTimerGetFreq → hvVcpuTimerGetFrequency (h.vcpu c) ≠ none) :
    ∃ h', hypHandleGuestHypercall h = .ok (.actionReturn, h') ∧
      Outcome b c (Answered h c) h.toCore h'.toCore := by
  have hok (r : HypExceptAction × Hyp P) (hr : ∃ h', r = (.actionReturn, h') ∧
      Outcome b c (Answered h c) h.toCore h'.toCore) :
      ∃ h', (.ok r : HypResult P) = .ok (.actionReturn, h') ∧
        Outcome b c (Answered h c) h.toCore h'.toCore := by
    obtain ⟨h', rfl, ho⟩ := hr
    exact ⟨h', rfl, ho⟩
  have hstores {v : BitVec 32} (hy : h.frame.r 0 ≠ hypercallYield) (hv : AbiResult h c v)
      (x : CpuContext) (hx : x = h.toCore.withR0 v) : Answered h c x :=
    ⟨v, hx, by rw [if_neg hy]; exact hv⟩
  have hd := hypHandleGuestHypercall_dispatched hs hc
  generalize hres : hypHandleGuestHypercall h = result at hd
  cases hd with
  | exit => exact hok _ (doExit_spec hs hc)
  | yield hn =>
    obtain ⟨j, h', hr, hset, hsw⟩ := hvSchedulerYield_spec hs hc
    -- the scheduler moves the registers as they are, with the number of the call in r0
    have hnumber : Answered h c h.live :=
      ⟨hypercallYield, by rw [← hn]; exact (Core.withR0_self _).symm, by rw [if_pos hn]⟩
    have ho := (Serves.refl hs.toHandling).outcome hset hsw fun _ _ => hnumber
    exact hok _ ⟨h', hr, ho⟩
  | claim hn =>
    obtain ⟨h', hr, ho⟩ := doVirqClaim_spec hs hc
    refine hok _ ⟨h', hr, ho.mono (hstores (by rw [hn]; decide) ?_)⟩
    rw [AbiResult, hn]
    rfl
  | complete hn =>
    obtain ⟨h', hr, ho⟩ := doVirqComplete_spec hs hc
    refine hok _ ⟨h', hr, ho.mono (hstores (by rw [hn]; decide) ?_)⟩
    rw [AbiResult, hn]
    rfl
  | delay hn =>
    obtain ⟨h', hr, ho⟩ := doTimerDelayTicks_spec hs hc
    refine hok _ ⟨h', hr, ho.mono (hstores (by rw [hn]; decide) ?_)⟩
    rw [AbiResult, hn]
    rfl
  | result v hn hcore =>
    have hy : h.frame.r 0 ≠ hypercallYield := fun he => absurd (he ▸ hn) (by decide)
    exact ⟨_, rfl, (hs.returnsResult hcore hc v).mono (hstores hy (abiResult_of_plain hs hc hn hres))⟩
  | divides hfreq hnone => exact absurd hnone (hdiv hfreq)
  | unknown hunknown => exact absurd hn hunknown

end Hypercalls

section LowerSync
variable {h : Hyp P}

/-- A trapped WFI is stepped over before the guest waits. -/
theorem hvSchedulerHandleWfi_spec (hs : Settled b c h.toCore) :
    ∃ h', hvSchedulerHandleWfi h = (.actionReturn, h') ∧
      Outcome b c (fun x => x = { h.live with
        frame := { h.frame with elrHyp := h.frame.elrHyp + instrLen h.frame.hsr } })
        h.toCore h'.toCore := by
  rw [hvSchedulerHandleWfi, hs.current]
  dsimp only
  by_cases hc : c = hvIdleVcpuIdx P
  · rw [if_pos (hs.roster.isIdleVcpu c |>.mpr hc)]
    obtain ⟨h', hr, hset, hsw⟩ :=
      hvSchedulerEnterIdle_spec hs.toHandling (fun hne => absurd hc hne) (hs.working hc)
    exact ⟨h', hr, (Serves.refl hs.toHandling).outcome hset hsw fun hne => absurd hc hne⟩
  · rw [if_neg (mt (hs.roster.isIdleVcpu c).mp hc)]
    have hserves := (Serves.refl hs.toHandling).setFrame
      { h.frame with elrHyp := h.frame.elrHyp + instrLen h.frame.hsr }
    split
    · have hcore : (hvVirqSync (hvSchedulerAdvanceTrappedWfi h) (some c)).toCore =
          (hvSchedulerAdvanceTrappedWfi h).toCore.syncVirq c := toCore_hvVirqSync ..
      refine ⟨_, rfl, ?_⟩
      rw [hcore]
      exact (hserves.syncVirq c).returns hc hs.running (synced_syncVirq _ _) rfl
    · refine Serves.advance ?_ fun _ _ => rfl
      exact hserves.setCurrent hc (v := hvVcpuBlock (h.vcpu c)) rfl rfl rfl

theorem handleLowerSync_hvc (hec : hsrEc h.frame.hsr = hsrEcHvcA32) :
    handleLowerSync h =
      if hsrIssImm16 h.frame.hsr = hypercallHvcImm then hypHandleGuestHypercall h
      else .error (.assertFailed "bad HVC immediate") := by
  have hv : hsrEcValid h.frame.hsr hypExceptionLowerSync = true := by
    simp only [hsrEcValid, hec]
    decide
  have hl : handleLowerSync h = handleHvcFromLower h := by
    rw [handleLowerSync, hv]
    simp only [if_pos hec]
    rfl
  have he : (hsrEc h.frame.hsr == hsrEcHvcA32) = true := beq_iff_eq.mpr hec
  rw [hl, handleHvcFromLower, he]
  by_cases hi : hsrIssImm16 h.frame.hsr = hypercallHvcImm
  · rw [if_pos hi, beq_iff_eq.mpr hi]
    rfl
  · rw [if_neg hi, beq_eq_false_iff_ne.mpr hi]
    rfl

/-- An HVC that returns is a known call that has been answered. -/
theorem handleLowerSync_hvc_outcome {h' : Hyp P} (hs : Settled b c h.toCore)
    (hc : c ≠ hvIdleVcpuIdx P) (hec : hsrEc h.frame.hsr = hsrEcHvcA32)
    (hr : handleLowerSync h = .ok (.actionReturn, h')) :
    Outcome b c (Answered h c) h.toCore h'.toCore := by
  rw [handleLowerSync_hvc hec] at hr
  split at hr
  · by_cases hn : HypercallKnown (h.frame.r 0)
    · by_cases hdiv : h.frame.r 0 = hypercallTimerGetFreq ∧
          hvVcpuTimerGetFrequency (h.vcpu c) = none
      · rw [hypHandleGuestHypercall_divides hs hc hdiv.1 hdiv.2] at hr
        cases hr
      · obtain ⟨h1, h1r, ho⟩ := hypHandleGuestHypercall_spec hs hc hn
          fun hnum hnone => hdiv ⟨hnum, hnone⟩
        rw [h1r] at hr
        cases hr
        exact ho
    · rw [hypHandleGuestHypercall_unknown hn] at hr
      cases hr
  · cases hr

theorem handleLowerSync_wfi (hec : hsrEc h.frame.hsr = hsrEcWfiWfe)
    (hiss : hsrIss h.frame.hsr &&& hsrWfiWfeIsWfe = 0) :
    handleLowerSync h = .ok (hvSchedulerHandleWfi h) := by
  have hv : hsrEcValid h.frame.hsr hypExceptionLowerSync = true := by
    simp only [hsrEcValid, hec]
    decide
  rw [handleLowerSync, hv]
  simp only [hec, hiss]
  rfl

theorem handleLowerSync_abort
    (hec : hsrEc h.frame.hsr = hsrEcPrefetchAbortLower ∨ hsrEc h.frame.hsr = hsrEcDataAbortLower) :
    handleLowerSync h = .ok (handleGuestAbort h) := by
  have hv : hsrEcValid h.frame.hsr hypExceptionLowerSync = true := by
    rcases hec with hec | hec <;>
    · simp only [hsrEcValid, hec]
      decide
  rw [handleLowerSync, hv]
  rcases hec with hec | hec <;>
  · simp only [hec]
    rfl

/-- Every other trap, and WFE, halts the machine or fails an assertion. -/
theorem handleLowerSync_other (hhvc : hsrEc h.frame.hsr ≠ hsrEcHvcA32)
    (hwfi : ¬ (hsrEc h.frame.hsr = hsrEcWfiWfe ∧ hsrIss h.frame.hsr &&& hsrWfiWfeIsWfe = 0))
    (habort : ¬ (hsrEc h.frame.hsr = hsrEcPrefetchAbortLower ∨
      hsrEc h.frame.hsr = hsrEcDataAbortLower)) (h' : Hyp P) :
    handleLowerSync h ≠ .ok (.actionReturn, h') := by
  rw [handleLowerSync]
  cases hsrEcValid h.frame.hsr hypExceptionLowerSync with
  | false => exact fun he => by cases he
  | true =>
    change (if hsrEc h.frame.hsr = hsrEcHvcA32 then _ else if hsrEc h.frame.hsr = hsrEcWfiWfe then _
      else if _ then _ else _) ≠ _
    rw [if_neg hhvc]
    by_cases hw : hsrEc h.frame.hsr = hsrEcWfiWfe
    · rw [if_pos hw, if_pos fun hz => hwfi ⟨hw, hz⟩]
      exact fun he => by cases he
    · rw [if_neg hw, if_neg habort]
      split <;> exact fun he => by cases he

end LowerSync

end PiPervisor.Hv
