import PiPervisor.Hv.MmioSpec
import PiPervisor.Hv.SchedulerSpec

/-! # What a handler does, and the stage-2 aborts

A handler first works for the vCPU that trapped: it may change that vCPU's
record and its live registers, and nothing of the others. Then it returns or lets
the scheduler choose. The outcome relates the state right after the trap to the
state when the handler returns. An abort is an access to a device, which is
completed, or it stops the guest.
-/
namespace PiPervisor.Hv
open Stage2 Library.BitField Library.ContextSwitch

variable {P : Platform} {b : Boot P} {c j : VcpuIdx P} {m m' m1 : Core P}

/-- The part of a handler before any choice of the scheduler, for vCPU `c`. -/
structure Serves (b : Boot P) (c : VcpuIdx P) (m m1 : Core P) : Prop where
  handling : Handling b c m1
  keeps : Keeps m m1
  others : ∀ k ≠ c, m1.registers.context k = m.registers.context k
  exited : ∀ k ≠ c, (m1.vcpu k).state = .exited ↔ (m.vcpu k).state = .exited

/-- A whole handler; `R` are the registers with which `c` may resume. -/
structure Outcome (b : Boot P) (c : VcpuIdx P) (R : CpuContext → Prop) (m m' : Core P) : Prop where
  settled : ∃ j, Settled b j m'
  keeps : Keeps m m'
  others : ∀ k ≠ c, m'.registers.context k = m.registers.context k
  exited : ∀ k ≠ c, (m'.vcpu k).state = .exited ↔ (m.vcpu k).state = .exited
  own : c ≠ hvIdleVcpuIdx P → (m'.vcpu c).state ≠ .exited → R (m'.registers.context c)

section Serves

theorem Serves.refl (h : Handling b c m) : Serves b c m m :=
  ⟨h, .refl m, fun _ _ => rfl, fun _ _ => .rfl⟩

/-- A write to the live frame reaches the current vCPU only. -/
theorem Serves.setFrame (h : Serves b c m m1) (frame : HypExceptState) :
    Serves b c m (m1.setFrame frame) where
  handling := h.handling.setFrame frame
  keeps := h.keeps.trans ⟨rfl, rfl, fun _ => rfl, fun _ => rfl⟩
  others k hk := by
    rw [← h.others k hk, Core.setFrame_registers]
    apply Registers.context_write_of_ne
    exact fun hc => hk (Option.some.inj (hc.symm.trans h.handling.current))
  exited := h.exited

theorem Serves.syncVirq (h : Serves b c m m1) (k : VcpuIdx P) : Serves b c m (m1.syncVirq k) :=
  ⟨h.handling.syncVirq k, h.keeps.trans ⟨rfl, rfl, fun _ => rfl, fun _ => rfl⟩, h.others, h.exited⟩

theorem Serves.setCurrent (h : Serves b c m m1) (hc : c ≠ hvIdleVcpuIdx P) {v : HvVcpu P}
    (hid : v.id = (m1.vcpu c).id) (hvm : v.vm = (m1.vcpu c).vm)
    (hctx : v.context = (m1.vcpu c).context) : Serves b c m (m1.setVcpu c v) where
  handling := h.handling.setCurrent hc hid hvm
  keeps := h.keeps.trans (Keeps.setVcpu m1 hid hvm)
  others k hk := by rw [Core.registers_setVcpu hctx, h.others k hk]
  exited k hk := by rw [Core.vcpu_setVcpu, if_neg hk, h.exited k hk]

theorem Serves.outcome {R : CpuContext → Prop} (h : Serves b c m m1) (hset : Settled b j m')
    (hsw : Switched m1 m')
    (hR : c ≠ hvIdleVcpuIdx P → (m1.vcpu c).state ≠ .exited → R m1.live) : Outcome b c R m m' where
  settled := ⟨j, hset⟩
  keeps := h.keeps.trans hsw.toKeeps
  others k hk := by rw [hsw.context, h.others k hk]
  exited k hk := (hsw.exited k).trans (h.exited k hk)
  own hc hex := by
    rw [hsw.context, Registers.context_current h.handling.current]
    exact hR hc (mt (hsw.exited c).mpr hex)

/-- A handler that returns to the guest that trapped. -/
theorem Serves.returns {R : CpuContext → Prop} (h : Serves b c m m1) (hc : c ≠ hvIdleVcpuIdx P)
    (hrun : (m1.vcpu c).state = .running) (hsync : Synced m1 c) (hR : R m1.live) :
    Outcome b c R m m1 :=
  h.outcome ⟨h.handling, hrun, fun hi => absurd hi hc, hsync⟩ (.refl m1) fun _ _ => hR

/-- A handler that ends with a choice of the scheduler. -/
theorem Serves.advance {R : CpuContext → Prop} {h1 : Hyp P} (h : Serves b c m h1.toCore)
    (hR : c ≠ hvIdleVcpuIdx P → (h1.vcpu c).state ≠ .exited → R h1.live) :
    ∃ h', hvSchedulerAdvance h1 = (.actionReturn, h') ∧ Outcome b c R m h'.toCore := by
  obtain ⟨j, h', hr, hset, hsw⟩ := hvSchedulerAdvance_spec h.handling
  exact ⟨h', hr, h.outcome hset hsw hR⟩

theorem Outcome.mono {R S : CpuContext → Prop} (h : Outcome b c R m m') (hRS : ∀ x, R x → S x) :
    Outcome b c S m m' :=
  ⟨h.settled, h.keeps, h.others, h.exited, fun hc hex => hRS _ (h.own hc hex)⟩

end Serves

section Devices
variable (h : Hyp P)

@[simp] theorem toCore_timSysGetTicks : (timSysGetTicks h).2.toCore = h.toCore := rfl

@[simp] theorem toCore_uartPut8 (v : BitVec 8) : (uartPut8 h v).toCore = h.toCore := rfl

@[simp] theorem toCore_setR0 (v : BitVec 32) : (setR0 h v).toCore =
    h.toCore.setFrame { h.frame with r := Function.update h.frame.r 0 v } := rfl

@[simp] theorem toCore_hvVtimerRearmPhysical :
    (hvVtimerRearmPhysical h).toCore = h.toCore := by
  rw [hvVtimerRearmPhysical]
  split <;> rfl

@[simp] theorem toCore_logStage2Fault (fault : HvStage2FaultInfo) (route : String) :
    (logStage2Fault h fault route).toCore = h.toCore := by
  rw [logStage2Fault]
  split <;> rfl

@[simp] theorem toCore_logGuestAbort : (logGuestAbort h).toCore = h.toCore := by
  rw [logGuestAbort]
  split <;> rfl

@[simp] theorem toCore_hypDumpExceptionState : (hypDumpExceptionState h).toCore = h.toCore := by
  simp only [hypDumpExceptionState, toCore_trace]

@[simp] theorem toCore_traceException : (traceException h).toCore = h.toCore := by
  rw [traceException]
  split
  · exact toCore_hypDumpExceptionState h
  · rfl

theorem frame_traceException : (traceException h).frame = h.frame :=
  congrArg Core.frame (toCore_traceException h)

/-- Tracing an exception shows in the output of the UART alone. -/
theorem traceException_eq : ∃ uart, traceException h = { h with uart := uart } := by
  refine ⟨(traceException h).uart, ?_⟩
  rw [traceException]
  split
  · simp only [hypDumpExceptionState, trace]
  · rfl

end Devices

section Resume

/-- The frame of an emulated access: a load has written its destination register. -/
def MmioCompleted (t : HypExceptState) (g : HypExceptState) : Prop :=
  if hsrIss t.hsr &&& hsrIssAbortWnr ≠ 0 then g = t
  else ∃ v, mmioWriteGuestReg t (mmioAccessReg (hsrIss t.hsr)) v = some g

/-- The frames with which a guest may resume after the trap that saved frame `t`. -/
def ResumedFrame (t f : HypExceptState) : Prop :=
  if t.exceptionType = hypExceptionIrq then f = t
  else if hsrEc t.hsr = hsrEcHvcA32 then ∃ v, f = { t with r := Function.update t.r 0 v }
  else if hsrEc t.hsr = hsrEcWfiWfe then f = { t with elrHyp := t.elrHyp + instrLen t.hsr }
  else hsrEc t.hsr = hsrEcDataAbortLower ∧
    ∃ g, MmioCompleted t g ∧ f = { g with elrHyp := t.elrHyp + instrLen t.hsr }

/-- The registers with which a guest may resume after it trapped with registers `t`. -/
def Resumed (t x : CpuContext) : Prop :=
  x.banked = t.banked ∧ x.vbar = t.vbar ∧ ResumedFrame t.frame x.frame

/-- A register write leaves the return address and the syndrome alone. -/
theorem mmioWriteGuestReg_keeps {t g : HypExceptState} {reg v : BitVec 32}
    (h : mmioWriteGuestReg t reg v = some g) : g.elrHyp = t.elrHyp ∧ g.hsr = t.hsr := by
  rw [mmioWriteGuestReg] at h
  split at h
  · cases h
    exact ⟨rfl, rfl⟩
  · split at h
    · cases h
      exact ⟨rfl, rfl⟩
    · cases h

theorem MmioCompleted.keeps {t g : HypExceptState} (h : MmioCompleted t g) :
    g.elrHyp = t.elrHyp ∧ g.hsr = t.hsr := by
  rw [MmioCompleted] at h
  split at h
  · rw [h]
    exact ⟨rfl, rfl⟩
  · obtain ⟨v, hv⟩ := h
    exact mmioWriteGuestReg_keeps hv

end Resume

section Mmio
variable {h : Hyp P} {fault : HvStage2FaultInfo}

/-- What emulating an access does: nothing but its code, or the completed frame. -/
def MmioResult (h : Hyp P) (fault : HvStage2FaultInfo) (r : ℤ × Hyp P) : Prop :=
  r.1 = hvMmioErrUnhandled ∧ r.2.toCore = h.toCore ∨
    r.1 = hvMmioOk ∧ fault.isInstruction = false ∧ ∃ g, r.2.toCore = h.toCore.setFrame g ∧
      if fault.isWrite then g = h.frame
      else ∃ v, mmioWriteGuestReg h.frame (mmioAccessReg fault.iss) v = some g

theorem mmioFinish_spec {h1 : Hyp P} (hcore : h1.toCore = h.toCore)
    (hinstr : fault.isInstruction = false) (size readValue : BitVec 32) :
    MmioResult h fault (mmioFinish h1 fault size (mmioAccessReg fault.iss) readValue) := by
  have hframe : h1.frame = h.frame := congrArg Core.frame hcore
  rw [mmioFinish]
  split
  · rename_i hw
    exact .inr ⟨rfl, hinstr, h.frame, hcore, by rw [if_pos hw]⟩
  · rename_i hw
    dsimp only
    rw [hframe]
    split
    · exact .inl ⟨rfl, hcore⟩
    · rename_i g hg
      refine .inr ⟨rfl, hinstr, g, ?_, ?_⟩
      · rw [← hcore]
        rfl
      · rw [if_neg hw]
        exact ⟨_, hg⟩

theorem hvMmioHandleFault_spec (h : Hyp P) (vcpu : VcpuIdx P) (fault : HvStage2FaultInfo) :
    MmioResult h fault (hvMmioHandleFault h vcpu fault) := by
  rcases hvMmioHandleFault_cases h vcpu fault with ⟨uart, he, -⟩ | ⟨q, hq, -, he⟩
  · rw [he]
    exact .inl ⟨rfl, rfl⟩
  · obtain ⟨-, hdecode, -⟩ := mmioRequest_eq_some hq
    obtain ⟨hinstr, -, -, hreg⟩ := mmioDecodeAccess_eq_some hdecode
    obtain ⟨uart, vuarts, ha⟩ := hvVirtualDeviceAccess_touches h (h.scheduler.vm q.vm).id q.region
      fault q.size q.value 0
    have hcore : (q.access h fault).2.2.toCore = h.toCore := by rw [MmioRequest.access, ha]
    rw [he, hreg]
    exact mmioFinish_spec hcore hinstr q.size _

end Mmio

section GuestAborts
variable {h : Hyp P} {R : CpuContext → Prop}

/-- A guest that is stopped never resumes; another vCPU is chosen. -/
theorem stopCurrentGuestVcpu_spec {h1 : Hyp P} (h : Serves b c m h1.toCore)
    (hc : c ≠ hvIdleVcpuIdx P) :
    ∃ h', stopCurrentGuestVcpu h1 c = (.actionReturn, h') ∧ Outcome b c R m h'.toCore := by
  have hs := (h.setCurrent hc (v := hvVcpuTimerDisable (h1.vcpu c)) rfl rfl rfl).setCurrent hc
    (v := { hvVcpuTimerDisable (h1.vcpu c) with state := .exited })
    (by simp) (by simp) (by simp)
  rw [stopCurrentGuestVcpu]
  refine Serves.advance ?_ ?_
  · rw [toCore_hvVtimerRearmPhysical]
    simpa using hs
  · intro _ hex
    exact absurd (by simp) hex

/-- The completed frame, read from the syndrome that the fault was decoded from. -/
theorem decodeStage2Fault_completed {g : HypExceptState}
    (hec : hsrEc h.frame.hsr = hsrEcPrefetchAbortLower ∨ hsrEc h.frame.hsr = hsrEcDataAbortLower)
    (hinstr : (decodeStage2Fault h c).isInstruction = false)
    (hg : if (decodeStage2Fault h c).isWrite then g = h.frame
      else ∃ v, mmioWriteGuestReg h.frame (mmioAccessReg (decodeStage2Fault h c).iss) v = some g) :
    hsrEc h.frame.hsr = hsrEcDataAbortLower ∧ MmioCompleted h.frame g := by
  have hne : (hsrEc h.frame.hsr == hsrEcPrefetchAbortLower) = false := hinstr
  have hwrite : (decodeStage2Fault h c).isWrite =
      (hsrIss h.frame.hsr &&& hsrIssAbortWnr != 0) := by
    change (!(hsrEc h.frame.hsr == hsrEcPrefetchAbortLower) && _) = _
    rw [hne]
    rfl
  refine ⟨hec.resolve_left (beq_eq_false_iff_ne.mp hne), ?_⟩
  have hiss : (decodeStage2Fault h c).iss = hsrIss h.frame.hsr := rfl
  rw [hwrite, hiss] at hg
  simpa only [MmioCompleted, bne_iff_ne] using hg

theorem logStage2Fault_eq (h : Hyp P) (fault : HvStage2FaultInfo) (route : String) :
    ∃ uart, logStage2Fault h fault route = { h with uart := uart } := by
  rw [logStage2Fault]
  split <;> exact ⟨_, rfl⟩

theorem logGuestAbort_eq (h : Hyp P) : ∃ uart, logGuestAbort h = { h with uart := uart } := by
  rw [logGuestAbort]
  split <;> exact ⟨_, rfl⟩

/-- An abort is an access that a device serves, or the end of the guest. -/
inductive AbortResult (h : Hyp P) (c : VcpuIdx P) : HypExceptAction × Hyp P → Prop
  | served (uart : Uart) (hok : (hvMmioHandleFault h c (decodeStage2Fault h c)).1 = hvMmioOk) :
      AbortResult h c (.actionReturn, advanceTrappedGuestInstr
        (hvMmioHandleFault { h with uart := uart } c (decodeStage2Fault h c)).2)
  | stopped {h1 : Hyp P} (hno : (hvMmioHandleFault h c (decodeStage2Fault h c)).1 ≠ hvMmioOk)
      (hcore : h1.toCore = h.toCore) (hclo : h1.sysClo = h.sysClo)
      (hswitches : h1.switches = h.switches) : AbortResult h c (stopCurrentGuestVcpu h1 c)

/-- What was printed before does not matter. -/
theorem AbortResult.of_uart {uart : Uart} {r : HypExceptAction × Hyp P}
    (hr : AbortResult { h with uart := uart } c r) : AbortResult h c r := by
  have hres := hvMmioHandleFault_uart h uart (decodeStage2Fault h c) c
  cases hr with
  | served uart' hok => exact .served uart' (hres.symm.trans hok)
  | stopped hno hcore hclo hswitches =>
    exact .stopped (fun hok => hno (hres.trans hok)) hcore hclo hswitches

theorem routeGuestAbort_result {i : VmIdx P} (hvm : (h.vcpu c).vm = some i) :
    AbortResult h c (routeGuestAbort h c i) := by
  have hstop (hno : (hvMmioHandleFault h c (decodeStage2Fault h c)).1 ≠ hvMmioOk)
      (route : String) : AbortResult h c
        (stopCurrentGuestVcpu (logStage2Fault h (decodeStage2Fault h c) route) c) := by
    obtain ⟨uart, he⟩ := logStage2Fault_eq h (decodeStage2Fault h c) route
    rw [he]
    exact .stopped hno rfl rfl rfl
  rw [routeGuestAbort]
  dsimp only
  rcases hf : hvVmFindRegion (h.scheduler.vm i) (decodeStage2Fault h c).ipa with - | region
  · refine hstop (hvMmioHandleFault_unserved hvm fun region he => ?_) _
    rw [hf] at he
    cases he
  have hother (ht : region.type ≠ .mmio) :
      (hvMmioHandleFault h c (decodeStage2Fault h c)).1 ≠ hvMmioOk := by
    apply hvMmioHandleFault_unserved hvm
    intro region' he
    rw [hf] at he
    cases he
    exact ht
  dsimp only
  cases ht : region.type with
  | ramGuard => exact hstop (hother (by rw [ht]; simp)) _
  | ram =>
    dsimp only
    split <;> exact hstop (hother (by rw [ht]; simp)) _
  | mmio =>
    obtain ⟨uart, hlog⟩ := logStage2Fault_eq h (decodeStage2Fault h c) "mmio"
    have hres := hvMmioHandleFault_uart h uart (decodeStage2Fault h c) c
    rw [hlog]
    dsimp only
    split
    · rename_i hok
      exact .served uart (hres.symm.trans hok)
    · rename_i hno
      obtain ⟨frame, uart', vuarts, htouch⟩ :=
        hvMmioHandleFault_touches { h with uart := uart } c (decodeStage2Fault h c)
      obtain ⟨uart2, he⟩ := logStage2Fault_eq
        (hvMmioHandleFault { h with uart := uart } c (decodeStage2Fault h c)).2
        (decodeStage2Fault h c) "mmio-unhandled"
      have hspec := hvMmioHandleFault_spec { h with uart := uart } c (decodeStage2Fault h c)
      rw [he]
      refine .stopped (fun hok => hno (hres.trans hok)) ?_ ?_ ?_
      · rcases hspec with ⟨-, hcore⟩ | ⟨hok, -⟩
        · exact hcore
        · exact absurd hok hno
      · rw [htouch]
      · rw [htouch]

theorem handleGuestAbort_result (hs : Settled b c h.toCore) (hc : c ≠ hvIdleVcpuIdx P) :
    AbortResult h c (handleGuestAbort h) := by
  obtain ⟨i, rfl⟩ := eq_castSucc_of_ne_idle hc
  obtain ⟨uart, hlog⟩ := logGuestAbort_eq h
  have hidle : hvSchedulerIsIdleVcpu { h with uart := uart } (some i.castSucc) = false := by
    rw [← Bool.not_eq_true]
    exact mt (hs.roster.isIdleVcpu _).mp hc
  have hcur : hvSchedulerGetCurrent { h with uart := uart } = some i.castSucc := hs.current
  have hvm : (({ h with uart := uart } : Hyp P).vcpu i.castSucc).vm = some i :=
    hs.roster.guest_vm i
  have hroute : handleGuestAbort h = routeGuestAbort { h with uart := uart } i.castSucc i := by
    simp only [handleGuestAbort, hlog, hcur, hidle, hvm]
    rfl
  rw [hroute]
  exact (routeGuestAbort_result hvm).of_uart

/-- An access to a device is completed; any other abort stops the guest. -/
theorem handleGuestAbort_spec (hs : Settled b c h.toCore) (hc : c ≠ hvIdleVcpuIdx P)
    (hec : hsrEc h.frame.hsr = hsrEcPrefetchAbortLower ∨ hsrEc h.frame.hsr = hsrEcDataAbortLower) :
    ∃ h', handleGuestAbort h = (.actionReturn, h') ∧
      Outcome b c (fun x => hsrEc h.frame.hsr = hsrEcDataAbortLower ∧
        ∃ g, MmioCompleted h.frame g ∧ x = { h.live with
          frame := { g with elrHyp := h.frame.elrHyp + instrLen h.frame.hsr } })
        h.toCore h'.toCore := by
  have hresult := handleGuestAbort_result hs hc
  generalize handleGuestAbort h = r at hresult
  cases hresult with
  | stopped _ hcore =>
    refine stopCurrentGuestVcpu_spec ?_ hc
    rw [hcore]
    exact .refl hs.toHandling
  | served uart hok =>
    have hspec := hvMmioHandleFault_spec { h with uart := uart } c (decodeStage2Fault h c)
    have hserved := (hvMmioHandleFault_uart h uart (decodeStage2Fault h c) c).trans hok
    generalize hvMmioHandleFault { h with uart := uart } c (decodeStage2Fault h c) = r
      at hspec hserved
    rcases hspec with ⟨hres, -⟩ | ⟨-, hinstr, g, hcore, hg⟩
    · rw [hres] at hserved
      exact absurd hserved hvMmioErrUnhandled_ne
    · obtain ⟨hdata, hg⟩ := decodeStage2Fault_completed hec hinstr hg
      obtain ⟨helr, hhsr⟩ := hg.keeps
      have hframe : r.2.frame = g := congrArg Core.frame hcore
      have hadvance : (advanceTrappedGuestInstr r.2).toCore =
          h.toCore.setFrame { g with elrHyp := g.elrHyp + instrLen g.hsr } := by
        change r.2.toCore.setFrame { r.2.frame with
          elrHyp := r.2.frame.elrHyp + instrLen r.2.frame.hsr } = _
        rw [hframe, hcore]
        rfl
      refine ⟨_, rfl, ?_⟩
      rw [hadvance]
      refine ((Serves.refl hs.toHandling).setFrame _).returns hc hs.running hs.synced ?_
      refine ⟨hdata, g, hg, ?_⟩
      rw [← helr, ← hhsr]
      rfl

end GuestAborts

end PiPervisor.Hv
