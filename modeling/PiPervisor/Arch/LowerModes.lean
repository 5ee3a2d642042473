import PiPervisor.Hv.Runs
import PiPervisor.Library.Aarch32

/-! # Status words of lower modes

An exception return goes to the mode in the status word of a trap frame, which
has to be one below Hyp mode. The vCPUs start in such modes, and no handler
changes a status word.
-/
namespace PiPervisor.Arch
open Library.Aarch32 Library.ContextSwitch Hv

variable {P : Platform} {b : Boot P} {c : VcpuIdx P} {h h' : Hyp P} {t : Trap}
  {r r' : RunState P} {ts : List Trap}

section Modes

/-- A mode of code below Hyp mode. -/
def LowerMode (mode : BitVec 5) : Prop :=
  mode = modeFiq ∨ (Bank.ofMode mode).isSome ∧ mode ≠ modeHyp

instance (mode : BitVec 5) : Decidable (LowerMode mode) := by
  unfold LowerMode
  infer_instance

def LowerPsr (psr : Word) : Prop := LowerMode (psr.setWidth 5)

instance (psr : Word) : Decidable (LowerPsr psr) := by
  unfold LowerPsr
  infer_instance

theorem LowerPsr.returnsTo {psr : Word} (hpsr : LowerPsr psr) : ReturnsTo .hyp (psr.setWidth 5) :=
  hpsr.imp_right fun hmode => ⟨hmode.1, fun _ => rfl⟩

theorem LowerPsr.ne_hyp {psr : Word} (hpsr : LowerPsr psr) : psr.setWidth 5 ≠ modeHyp := by
  rcases hpsr with hfiq | ⟨-, hne⟩
  · rw [hfiq]
    decide
  · exact hne

/-- All guests start in lower modes. -/
def Boot.Lower (b : Boot P) : Prop := ∀ i g, b.guests i = some g → LowerPsr g.cpsr

end Modes

section Idle

/-- A trap of the idle vCPU changes no registers. -/
theorem handleIrq_idle (hs : Settled b (hvIdleVcpuIdx P) h.toCore)
    (hr : handleIrq h = .ok (.actionReturn, h')) :
    h'.registers.context = h.registers.context := by
  rw [handleIrq] at hr
  split at hr
  · obtain ⟨j, h1, ha, -, hsw⟩ := hvSchedulerAdvance_spec (h := countIrq (genTimAck h)) hs.toHandling
    rw [handleGenericTimer, ha] at hr
    rcases hg : genTimRearm h1 with e | h2 <;> dsimp only at hr <;> rw [hg] at hr <;> cases hr
    rw [toCore_genTimRearm hg]
    exact hsw.context
  · split at hr
    · obtain ⟨m1, hm1, hserves, -, hlive, -⟩ :=
        bcmTimer_core hs _ (toCore_hvVtimerRearmPhysical (bcmDelivered h))
      have hcore : (bcmServed h).toCore = m1 := hm1
      have hcontext : m1.registers.context = h.registers.context := by
        funext k
        by_cases hk : k = hvIdleVcpuIdx P
        · rw [hk, Registers.context_current hserves.handling.current,
            Registers.context_current hs.current]
          exact hlive
        · exact hserves.others k hk
      rw [handleBcmTimer_eq] at hr
      split at hr
      · obtain ⟨j, h1, ha, -, hsw⟩ := hvSchedulerAdvance_spec (hcore ▸ hserves.handling)
        rw [ha] at hr
        cases hr
        rw [hsw.context, hcore, hcontext]
      · cases hr
        rw [hcore, hcontext]
    · cases hr

theorem handleWfi_idle (hs : Settled b (hvIdleVcpuIdx P) h.toCore) :
    (hvSchedulerHandleWfi h).2.registers.context = h.registers.context := by
  obtain ⟨h1, h1r, -, hsw⟩ :=
    hvSchedulerEnterIdle_spec hs.toHandling (fun hne => absurd rfl hne) (hs.working rfl)
  rw [hvSchedulerHandleWfi, hs.current]
  dsimp only
  rw [if_pos ((hs.roster.isIdleVcpu _).mpr rfl), h1r]
  exact hsw.context

theorem hypHandleException_idle (hs : Settled b (hvIdleVcpuIdx P) h.toCore)
    (ht : h.frame.exceptionType = hypExceptionIrq ∨
      h.frame.exceptionType = hypExceptionLowerSync ∧ IdleWaits (hvIdleVcpuIdx P) h.frame)
    (hr : hypHandleException h = .ok (.actionReturn, h')) :
    h'.registers.context = h.registers.context := by
  have hcore := toCore_traceException h
  rw [← hcore] at hs ⊢
  rcases ht with ht | ⟨ht, hw⟩
  · rw [hypHandleException_irq ht] at hr
    exact handleIrq_idle hs hr
  · obtain ⟨hec, hiss⟩ := hw rfl
    rw [← frame_traceException h] at hec hiss
    rw [hypHandleException_lowerSync ht, handleLowerSync_wfi hec hiss] at hr
    obtain rfl := congrArg Prod.snd (Except.ok.inj hr)
    exact handleWfi_idle hs

end Idle

section Runs

theorem ResumedFrame.spsrHyp {f g : HypExceptState} (hf : ResumedFrame f g) :
    g.spsrHyp = f.spsrHyp := by
  rw [ResumedFrame] at hf
  split at hf
  · rw [hf]
  split at hf
  · obtain ⟨v, rfl⟩ := hf
    rfl
  split at hf
  · rw [hf]
  obtain ⟨-, g, hg, rfl⟩ := hf
  rw [MmioCompleted] at hg
  split at hg
  · rw [hg]
  obtain ⟨v, hv⟩ := hg
  rw [mmioWriteGuestReg] at hv
  split at hv
  · cases hv
    rfl
  split at hv
  · cases hv
    rfl
  · cases hv

/-- The vCPUs that may still run have status words of lower modes. -/
structure LowerContexts (b : Boot P) (r : RunState P) : Prop where
  idle : LowerPsr (r.hyp.registers.context (hvIdleVcpuIdx P)).frame.spsrHyp
  guest : ∀ i, b.guests i ≠ none → (r.hyp.vcpu i.castSucc).state ≠ .exited →
    LowerPsr (r.hyp.registers.context i.castSucc).frame.spsrHyp

/-- The vCPU that runs is one of them. -/
theorem LowerContexts.frame (hl : LowerContexts b r) (hr : Running b r) :
    LowerPsr r.hyp.frame.spsrHyp := by
  obtain ⟨c, hs⟩ := hr.settled
  have hlive : r.hyp.registers.context c = r.hyp.live := Registers.context_current hs.current
  have hframe : (r.hyp.registers.context c).frame = r.hyp.frame := by
    rw [hlive]
    rfl
  rw [← hframe]
  by_cases hc : c = hvIdleVcpuIdx P
  · rw [hc]
    exact hl.idle
  · obtain ⟨i, rfl⟩ := eq_castSucc_of_ne_idle hc
    refine hl.guest i (fun hi => (hs.unused i hi).2 rfl) ?_
    rw [hs.running]
    simp

theorem LowerContexts.step (hl : LowerContexts b r) (hr : Running b r)
    (ht : LowerPsr t.frame.spsrHyp) (hstep : r.step t = some r') : LowerContexts b r' := by
  have hothers := fun c hc => hr.others hstep (c := c) hc
  obtain ⟨c, h1, hc, hcan, h1r, rfl⟩ := RunState.step_eq_some hstep
  obtain ⟨j, hs⟩ := hr.settled
  obtain rfl : j = c := Option.some.inj (hs.current.symm.trans hc)
  have ho := takeTrap_outcome hs hcan h1r
  constructor
  · change LowerPsr (h1.registers.context _).frame.spsrHyp
    by_cases hj : j = hvIdleVcpuIdx P
    · subst hj
      rw [hypHandleException_idle (hs.takeTrap t)
        (hcan.imp_right fun ht => ⟨ht.1, hs.idleWaits ht.2⟩) h1r]
      rw [Registers.context_current (hs.takeTrap t).current]
      exact ht
    · rw [hothers j hc _ (Ne.symm hj)]
      exact hl.idle
  · intro i hi hex
    change LowerPsr (h1.registers.context _).frame.spsrHyp
    by_cases hj : i.castSucc = j
    · subst hj
      rw [ResumedFrame.spsrHyp (ho.own (castSucc_ne_idle i) hex).2.2]
      exact ht
    · rw [hothers j hc _ hj]
      exact hl.guest i hi (mt (ho.exited _ hj).mpr hex)

theorem hvSchedulerInit_idle (hr : hvSchedulerInit h = .ok h') :
    (h'.vcpu (hvIdleVcpuIdx P)).context.hypState.spsrHyp = hypLowerSvcCpsr := by
  rw [hvSchedulerInit] at hr
  rcases hfold : (List.finRange P.hvMaxVms).foldlM initGuestVm { h with
    scheduler := { h.scheduler with
      curIdx := 0, vcpus := fun i => resetVcpu i (h.vcpu i) } } with e | h1
  · dsimp only at hr
    rw [hfold] at hr
    cases hr
  dsimp only at hr
  rw [hfold] at hr
  cases hr
  change (((h1.toCore.setVcpu (hvIdleVcpuIdx P) _).setVcpu (hvIdleVcpuIdx P) _).setVcpu 0 _ |>.vcpu
    (hvIdleVcpuIdx P)).context.hypState.spsrHyp = _
  have hidle : hvIdleVcpuIdx P ≠ 0 := (castSucc_ne_idle (firstVm P)).symm
  rw [Core.vcpu_setVcpu, if_neg hidle, Core.vcpu_setVcpu_self]
  change ((h1.toCore.setVcpu (hvIdleVcpuIdx P) _).vcpu _).context.hypState.spsrHyp = _
  rw [Core.vcpu_setVcpu_self]
  rfl

/-- The boot leaves the vCPUs in lower modes. -/
theorem lowerContexts_main (hb : Boot.Lower b) (hr : b.main = .ok h) :
    LowerContexts b ⟨h, fun _ => none⟩ := by
  obtain ⟨h0, h0r, hs, -, hctx⟩ := b.main_spec
  obtain rfl : h0 = h := Except.ok.inj (h0r.symm.trans hr)
  constructor
  · obtain ⟨h1, vcpus, hinit, -, -, hout, hmain⟩ := b.main_eq
    have hidle : (vcpus (hvIdleVcpuIdx P)).context.hypState.spsrHyp = hypLowerSvcCpsr := by
      rw [hout _ fun i hi => absurd hi.symm (castSucc_ne_idle i)]
      exact hvSchedulerInit_idle hinit
    obtain rfl := Except.ok.inj (h0r.symm.trans hmain)
    have hne : hvIdleVcpuIdx P ≠ 0 := (castSucc_ne_idle (firstVm P)).symm
    have hcur : (b.rearmed (b.started h1 vcpus)).scheduler.curVcpu ≠ some (hvIdleVcpuIdx P) := by
      rw [b.toCore_rearmed]
      exact fun he => hne (Option.some.inj he).symm
    have hvcpu : (b.rearmed (b.started h1 vcpus)).vcpu (hvIdleVcpuIdx P) =
        vcpus (hvIdleVcpuIdx P) := by
      rw [b.toCore_rearmed]
      exact (Core.vcpu_setVcpu ..).trans (if_neg hne)
    have hcontext : (hvVcpuEnterInitial (b.rearmed (b.started h1 vcpus)) 0).registers.context
        (hvIdleVcpuIdx P) = (vcpus (hvIdleVcpuIdx P)).context.toCpu := by
      rw [← hvcpu, toCore_hvVcpuEnterInitial]
      exact if_neg hcur
    change LowerPsr (CpuContext.frame (Registers.context _ _)).spsrHyp
    rw [hcontext]
    change LowerPsr (vcpus (hvIdleVcpuIdx P)).context.hypState.spsrHyp
    rw [hidle]
    decide
  · intro i hi _
    obtain ⟨g, hg⟩ := Option.ne_none_iff_exists'.mp hi
    change LowerPsr (h0.registers.context _).frame.spsrHyp
    rw [hctx i g hg, startContext]
    split <;> exact hb i g hg

theorem Boot.run_concat (b : Boot P) (ts : List Trap) (t : Trap) :
    b.run (ts ++ [t]) = (b.run ts).bind fun r => r.step t := by
  rw [Boot.run, Boot.run]
  cases b.main with
  | error e => rfl
  | ok h0 =>
    dsimp only
    rw [Library.Transition.run_append]
    congr 1
    funext r
    rw [Library.Transition.run_cons]
    exact Option.bind_fun_some _

/-- A trap whose handler returns is a step of a run. -/
theorem Running.step_eq (hr : Running b r) (hcan : canTrap r.hyp t)
    (h : hypHandleException (takeTrap r.hyp t) = .ok (.actionReturn, h')) :
    ∃ last, r.step t = some ⟨h', last⟩ := by
  obtain ⟨c, hs⟩ := hr.settled
  refine ⟨Function.update r.lastTrap c (some t), ?_⟩
  rw [RunState.step, hs.current]
  dsimp only
  rw [if_pos hcan, h]

/-- In every run the vCPU that runs has a status word of a lower mode. -/
theorem run_lowerContexts (hb : Boot.Lower b) (hts : ∀ t ∈ ts, LowerPsr t.frame.spsrHyp)
    (hr : b.run ts = some r) : LowerContexts b r := by
  induction ts using List.reverseRecOn generalizing r with
  | nil =>
    rw [Boot.run] at hr
    rcases hm : b.main with e | h0 <;> rw [hm] at hr <;> cases hr
    exact lowerContexts_main hb hm
  | append_singleton ts t ih =>
    rw [Boot.run_concat] at hr
    obtain ⟨r0, h0, hstep⟩ := Option.bind_eq_some_iff.mp hr
    have hlower := ih (fun t' ht' => hts t' (List.mem_append_left _ ht')) h0
    exact hlower.step (Boot.run_running h0) (hts t (by simp)) hstep

end Runs

end PiPervisor.Arch
