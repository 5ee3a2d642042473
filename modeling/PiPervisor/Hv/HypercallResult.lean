import PiPervisor.Hv.Runs

/-! # The results of hypercalls

The result of a call is in r0 when the guest that made it runs again. A call that
gives up the CPU has to store it before the switch: the registers of a guest stay as
they are while others run. A delay does so; a yield stores nothing, and the guest finds
the number of the call that it made.
-/
namespace PiPervisor.Hv
open Library.ContextSwitch

variable {P : Platform} {b : Boot P} {c : VcpuIdx P} {h h' : Hyp P} {t : Trap}

/-- The machine takes traps from `r` on until `c` is the one that runs. -/
inductive NextRuns (c : VcpuIdx P) : RunState P → RunState P → Prop
  | now {r : RunState P} (hc : r.hyp.scheduler.curVcpu = some c) : NextRuns c r r
  | later {r r' r'' : RunState P} {t : Trap} (hc : r.hyp.scheduler.curVcpu ≠ some c)
      (hstep : r.step t = some r') (hrest : NextRuns c r' r'') : NextRuns c r r''

/-- A vCPU is not stopped by the trap of another one. -/
theorem Running.exited_others {r r' : RunState P} (hi : Running b r) (hstep : r.step t = some r')
    (hc : r.hyp.scheduler.curVcpu ≠ some c) :
    (r'.hyp.vcpu c).state = .exited ↔ (r.hyp.vcpu c).state = .exited := by
  obtain ⟨c', h', hc', hcan, hr, rfl⟩ := RunState.step_eq_some hstep
  obtain ⟨j, hs⟩ := hi.settled
  obtain rfl : j = c' := Option.some.inj (hs.current.symm.trans hc')
  exact (takeTrap_outcome hs hcan hr).exited c fun he => hc (he ▸ hc')

theorem NextRuns.keeps {r r' : RunState P} (hn : NextRuns c r r') (hi : Running b r) :
    Running b r' ∧ r'.hyp.scheduler.curVcpu = some c ∧
      r'.hyp.registers.context c = r.hyp.registers.context c ∧
      ((r'.hyp.vcpu c).state = .exited ↔ (r.hyp.vcpu c).state = .exited) := by
  induction hn with
  | now hc => exact ⟨hi, hc, rfl, .rfl⟩
  | later hc hstep _ ih =>
    obtain ⟨hi', hcur, hctx, hexited⟩ := ih (hi.step hstep)
    obtain ⟨k, hs⟩ := hi.settled
    have hk : c ≠ k := fun he => hc (he ▸ hs.current)
    exact ⟨hi', hcur, hctx.trans (hi.others hstep hs.current c hk),
      hexited.trans (hi.exited_others hstep hc)⟩

/-- The registers of a vCPU when it runs again, and that it was not stopped. -/
theorem NextRuns.resumes {r r' : RunState P} (hn : NextRuns c r r') (hi : Running b r) :
    r'.hyp.live = r.hyp.registers.context c ∧ (r.hyp.vcpu c).state ≠ .exited := by
  obtain ⟨hi', hcur, hctx, hexited⟩ := hn.keeps hi
  obtain ⟨k, hs⟩ := hi'.settled
  obtain rfl : k = c := Option.some.inj (hs.current.symm.trans hcur)
  refine ⟨(Registers.context_current hs.current).symm.trans hctx, ?_⟩
  rw [ne_eq, ← hexited, hs.running]
  decide

/-- A yield is given a status: it has no value to return. -/
theorem abiResult_yield_iff {v : BitVec 32} (hn : h.frame.r 0 = hypercallYield) :
    AbiResult h c v ↔
      v ∈ [hypercallSuccess, hypercallErrUnknown, hypercallErrInvalid, hypercallErrNoPending] := by
  rw [AbiResult, hn]
  exact .rfl

/-- Tracing changes no result. -/
theorem answered_traceException (h : Hyp P) (c : VcpuIdx P) (x : CpuContext) :
    Answered (traceException h) c x ↔ Answered h c x := by
  obtain ⟨uart, he⟩ := traceException_eq h
  rw [he]
  exact .rfl

/-- The idle vCPU makes no calls. -/
theorem Settled.guest_of_hvc (hs : Settled b c h.toCore) (hcan : canTrap h t)
    (htype : t.frame.exceptionType = hypExceptionLowerSync)
    (hhvc : hsrEc t.frame.hsr = hsrEcHvcA32) : c ≠ hvIdleVcpuIdx P := by
  have hirq : t.frame.exceptionType ≠ hypExceptionIrq := by rw [htype]; decide
  apply (hs.idleWaits (hcan.resolve_left hirq).2).guest
  rw [hhvc]
  decide

/-- An HVC that returns, from a state in which a vCPU runs. -/
theorem takeTrap_hvc_outcome (hs : Settled b c h.toCore) (hcan : canTrap h t)
    (htype : t.frame.exceptionType = hypExceptionLowerSync)
    (hhvc : hsrEc t.frame.hsr = hsrEcHvcA32)
    (hr : hypHandleException (takeTrap h t) = .ok (.actionReturn, h')) :
    Outcome b c (Answered (takeTrap h t) c) (takeTrap h t).toCore h'.toCore := by
  have hc := hs.guest_of_hvc hcan htype hhvc
  have hcore := toCore_traceException (takeTrap h t)
  have hframe : (traceException (takeTrap h t)).frame = t.frame := frame_traceException _
  rw [hypHandleException_lowerSync htype] at hr
  have ho := handleLowerSync_hvc_outcome (hcore ▸ hs.takeTrap t) hc (hframe.symm ▸ hhvc) hr
  rw [hcore] at ho
  exact ho.mono fun x => (answered_traceException _ c x).mp

/-- When the vCPU that made a call runs next, r0 holds the result that the ABI gives the call,
exactly if the call was no yield. -/
theorem hypercall_answers_caller_iff (b : Boot P) (ts : List Trap) (r r1 r2 : RunState P)
    (c : VcpuIdx P) (t : Trap) (hr : b.run ts = some r)
    (hc : r.hyp.scheduler.curVcpu = some c)
    (htype : t.frame.exceptionType = hypExceptionLowerSync)
    (hhvc : hsrEc t.frame.hsr = hsrEcHvcA32) (hstep : r.step t = some r1)
    (hnext : NextRuns c r1 r2) :
    AbiResult (takeTrap r.hyp t) c (r2.hyp.frame.r 0) ↔ t.frame.r 0 ≠ hypercallYield := by
  have hi := b.run_running hr
  obtain ⟨hlive, hexited⟩ := hnext.resumes (hi.step hstep)
  obtain ⟨c', h', hc', hcan, hres, rfl⟩ := RunState.step_eq_some hstep
  obtain ⟨j, hs⟩ := hi.settled
  obtain rfl : j = c := Option.some.inj (hs.current.symm.trans hc)
  have ho := takeTrap_hvc_outcome hs hcan htype hhvc hres
  obtain ⟨v, hx, hv⟩ := ho.own (hs.guest_of_hvc hcan htype hhvc) hexited
  have hr0 : r2.hyp.frame.r 0 = v := by
    have hframe : r2.hyp.frame = r2.hyp.live.frame := rfl
    rw [hframe, hlive]
    change (h'.toCore.registers.context j).frame.r 0 = v
    rw [hx, Core.withR0_r0]
  rw [hr0]
  change (if t.frame.r 0 = hypercallYield then _ else _) at hv
  by_cases hy : t.frame.r 0 = hypercallYield
  · rw [if_pos hy] at hv
    rw [abiResult_yield_iff hy, hv]
    exact iff_of_false (by decide) (not_not.mpr hy)
  · rw [if_neg hy] at hv
    exact iff_of_true hv hy

/-- The first guest waits for its timer, and runs again when the second one yields. -/
theorem hypercall_answers_caller_delay : ∃ r r1 r2, (twoGuests 0).run [] = some r ∧
    r.step (hypercallTrap hypercallTimerDelayTicks 100) = some r1 ∧ NextRuns 0 r1 r2 ∧
      AbiResult (takeTrap r.hyp (hypercallTrap hypercallTimerDelayTicks 100)) 0
        (r2.hyp.frame.r 0) := by
  have heval : ((twoGuests 0).run []).bind (fun r =>
      (r.step (hypercallTrap hypercallTimerDelayTicks 100)).bind fun r1 =>
        (r1.step (timerTrap 700)).bind fun r' => (r'.step (hypercallTrap hypercallYield 0)).map
          fun r2 => [r, r1, r', r2].map (·.hyp.scheduler.curVcpu)) =
      some [some 0, some 1, some 1, some 0] := by
    decide +kernel
  obtain ⟨r, hr, heval⟩ := Option.bind_eq_some_iff.mp heval
  obtain ⟨r1, h1, heval⟩ := Option.bind_eq_some_iff.mp heval
  obtain ⟨r', h', heval⟩ := Option.bind_eq_some_iff.mp heval
  obtain ⟨r2, h2, hcur⟩ := Option.map_eq_some_iff.mp heval
  simp only [List.map_cons, List.map_nil, List.cons.injEq, and_true] at hcur
  obtain ⟨hc, hc1, hc', hc2⟩ := hcur
  have hnext : NextRuns 0 r1 r2 :=
    .later (by rw [hc1]; decide) h' (.later (by rw [hc']; decide) h2 (.now hc2))
  exact ⟨r, r1, r2, hr, h1, hnext, (hypercall_answers_caller_iff (twoGuests 0) [] r r1 r2 0
    (hypercallTrap hypercallTimerDelayTicks 100) hr hc rfl rfl h1 hnext).mpr (by decide)⟩

/-- Two guests yield to each other, and the first finds the number of its call in r0. -/
theorem hypercall_yield_leaves_number : ∃ r r1 r2, (twoGuests 0).run [] = some r ∧
    r.hyp.scheduler.curVcpu = some 0 ∧ r.step (hypercallTrap hypercallYield 0) = some r1 ∧
      NextRuns 0 r1 r2 ∧ r2.hyp.frame.r 0 = hypercallYield ∧
      ¬ AbiResult (takeTrap r.hyp (hypercallTrap hypercallYield 0)) 0 (r2.hyp.frame.r 0) := by
  have heval : ((twoGuests 0).run []).bind (fun r =>
      (r.step (hypercallTrap hypercallYield 0)).bind fun r1 =>
        (r1.step (hypercallTrap hypercallYield 0)).map fun r2 =>
          ([r, r1, r2].map (·.hyp.scheduler.curVcpu), r2.hyp.frame.r 0)) =
      some ([some 0, some 1, some 0], hypercallYield) := by
    decide +kernel
  obtain ⟨r, hr, heval⟩ := Option.bind_eq_some_iff.mp heval
  obtain ⟨r1, h1, heval⟩ := Option.bind_eq_some_iff.mp heval
  obtain ⟨r2, h2, he⟩ := Option.map_eq_some_iff.mp heval
  obtain ⟨hcur, hr0⟩ := Prod.mk.inj he
  simp only [List.map_cons, List.map_nil, List.cons.injEq, and_true] at hcur
  obtain ⟨hc, hc1, hc2⟩ := hcur
  refine ⟨r, r1, r2, hr, hc, h1, .later (by rw [hc1]; decide) h2 (.now hc2), hr0, ?_⟩
  rw [abiResult_yield_iff rfl, hr0]
  decide

end PiPervisor.Hv
