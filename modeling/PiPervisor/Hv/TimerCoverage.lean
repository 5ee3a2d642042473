import PiPervisor.Hv.Exit

/-! # The physical timer covers the virtual ones

Whenever a handler returns, the ARM timer is programmed for the earliest deadline of
the guests whose timer counts, as it was when the handler last re-armed it, and off if
there is no such guest: what changes a deadline, or whether it counts, re-arms.
-/
namespace PiPervisor.Hv
open Library.Transition

variable {P : Platform} {b : Boot P} {r r' : RunState P} {t : Trap}

/-- The ARM timer serves the guests that are neither idle nor exited and have an enabled timer;
it was last programmed at `tick`. -/
structure TimerCovers (h : Hyp P) (tick : BitVec 32) : Prop where
  off : (∀ i : VmIdx P, hasLiveTimer (h.vcpu i.castSucc) = false) →
    h.irq.enabledBasic &&& 1#32 <<< irqArmTimerInt = 0
  on : (∃ i : VmIdx P, hasLiveTimer (h.vcpu i.castSucc) = true) →
    h.irq.enabledBasic &&& 1#32 <<< irqArmTimerInt ≠ 0 ∧
      ∃ i : VmIdx P, hasLiveTimer (h.vcpu i.castSucc) = true ∧
        (∀ j : VmIdx P, hasLiveTimer (h.vcpu j.castSucc) = true →
          (h.vcpu i.castSucc).timer.deadline ≤ (h.vcpu j.castSucc).timer.deadline) ∧
        h.armTimer.load = (timerTicks (BitVec.ofNat 32
          (min (max 1 ((h.vcpu i.castSucc).timer.deadline.toNat - tick.toNat))
            timArmTimerMaxDeltaUs.toNat))).setWidth 32

theorem Covered.timerCovers {h : Hyp P} {tick : BitVec 32}
    (hc : Covered h.sched.deadlines tick h.alarm) : TimerCovers h tick := by
  have hmem (i : VmIdx P) (hi : hasLiveTimer (h.vcpu i.castSucc) = true) :
      (h.vcpu i.castSucc).timer.deadline ∈ h.sched.deadlines :=
    ⟨i, (hasLiveTimer_eq _).symm.trans hi, rfl⟩
  by_cases hz : h.irq.enabledBasic &&& 1#32 <<< irqArmTimerInt = 0
  · have halarm : h.alarm = none := if_pos hz
    rw [halarm] at hc
    have hempty : h.sched.deadlines = ∅ := hc
    refine ⟨fun _ => hz, fun ⟨i, hi⟩ => ?_⟩
    have hin := hmem i hi
    rw [hempty] at hin
    exact absurd hin (Set.notMem_empty _)
  · have halarm : h.alarm = some h.armTimer.load := if_neg hz
    rw [halarm] at hc
    obtain ⟨d, ⟨⟨i, hi, hd⟩, hleast⟩, hload⟩ := hc
    have hlive : hasLiveTimer (h.vcpu i.castSucc) = true := (hasLiveTimer_eq _).trans hi
    refine ⟨fun hnone => ?_, fun _ => ⟨hz, i, hlive, fun j hj => ?_, ?_⟩⟩
    · rw [hnone i] at hlive
      cases hlive
    · exact hd ▸ hleast (hmem j hj)
    · rw [hload, ← hd]
      rfl

/-- A state of a run, with the tick at which a handler last re-armed the physical timer. -/
structure ArmedState (P : Platform) where
  run : RunState P
  armed : Option (BitVec 32)

def ArmedState.step (s : ArmedState P) (t : Trap) : Option (ArmedState P) :=
  (s.run.step t).map fun r =>
    { run := r
      armed :=
        if (s.run.request t).rearms then some (rearmTick (takeTrap s.run.hyp t) (s.run.request t))
        else s.armed }

/-- A run of a boot, which may itself re-arm the timer before it enters the first guest. -/
def Boot.runArmed (b : Boot P) (ts : List Trap) : Option (ArmedState P) :=
  match b.main with
  | .ok h => Library.Transition.run ArmedState.step
      ⟨{ hyp := h, lastTrap := fun _ => none }, if b.rearm then some (b.reset.sysClo 0) else none⟩ ts
  | .error _ => none

section Boot

theorem sysClo_hvSchedulerInit {h h' : Hyp P} (hr : hvSchedulerInit h = .ok h') :
    h'.sysClo = h.sysClo := by
  have hturn {h h' : Hyp P} {i : VmIdx P} (hr : initGuestVm h i = .ok h') :
      h'.sysClo = h.sysClo := by
    rw [initGuestVm] at hr
    rcases hb : buildGuestVm (h.scheduler.vm i) h.stage2TablePools i with e | ⟨vm, pools⟩
    · rw [hb] at hr
      cases hr
    · rw [hb] at hr
      cases hr
      change (traceGuestVm (h.setVm i vm pools) i vm).sysClo = _
      rw [traceGuestVm]
      split <;> rfl
  have hloop (l : List (VmIdx P)) {h h' : Hyp P} (hr : l.foldlM initGuestVm h = .ok h') :
      h'.sysClo = h.sysClo := by
    induction l generalizing h with
    | nil =>
      cases hr
      rfl
    | cons i l ih =>
      rw [List.foldlM_cons] at hr
      rcases hi : initGuestVm h i with e | h1
      · rw [hi] at hr
        cases hr
      · rw [hi] at hr
        exact (ih hr).trans (hturn hi)
  rw [hvSchedulerInit] at hr
  dsimp only at hr
  rcases hl : (List.finRange P.hvMaxVms).foldlM initGuestVm { h with scheduler := { h.scheduler with
    curIdx := 0, vcpus := fun i => resetVcpu i (h.vcpu i) } } with e | h1
  · rw [hl] at hr
    cases hr
  · rw [hl] at hr
    cases hr
    have hclo := hloop _ hl
    exact hclo

/-- A boot that re-arms leaves the deadlines of its guests covered. -/
theorem Boot.main_covered (b : Boot P) {h : Hyp P} (hr : b.main = .ok h) (ha : b.rearm = true) :
    Covered h.sched.deadlines (b.reset.sysClo 0) h.alarm := by
  obtain ⟨h1, vcpus, h1r, -, -, -, hmain⟩ := b.main_eq
  rw [hmain] at hr
  cases hr
  have hclo : (b.started h1 vcpus).sysClo = b.reset.sysClo := by
    rw [← sysClo_hvSchedulerInit h1r, Boot.started]
    dsimp only
    split <;> rfl
  have hcovered := hvVtimerRearmPhysical_covered (b.started h1 vcpus)
  have hrearmed : b.rearmed (b.started h1 vcpus) = hvVtimerRearmPhysical (b.started h1 vcpus) :=
    if_pos ha
  have hsched : (hvVcpuEnterInitial (b.rearmed (b.started h1 vcpus)) 0).sched =
      (b.started h1 vcpus).sched := by
    rw [toCore_hvVcpuEnterInitial]
    change (b.rearmed (b.started h1 vcpus)).sched = _
    rw [b.toCore_rearmed]
  have halarm : (hvVcpuEnterInitial (b.rearmed (b.started h1 vcpus)) 0).alarm =
      (b.rearmed (b.started h1 vcpus)).alarm := (sameDevices_hvMmuActivateVcpu _ 0).alarm
  rw [hclo] at hcovered
  rwa [hsched, halarm, hrearmed]

end Boot

/-- A step re-arms the timer, or leaves it and the deadlines alone. -/
theorem Running.covered_step (hi : Running b r) (h : r.step t = some r') {armed : Option (BitVec 32)}
    (hc : ∀ tick, armed = some tick → Covered r.sched.deadlines tick r.hyp.alarm) (tick : BitVec 32)
    (ha : (if (r.request t).rearms then some (rearmTick (takeTrap r.hyp t) (r.request t))
      else armed) = some tick) : Covered r'.sched.deadlines tick r'.hyp.alarm := by
  have hreact := hi.reacts h
  cases hq : (r.request t).rearms with
  | true =>
    rw [hq, if_pos rfl] at ha
    rw [← Option.some.inj ha]
    exact hreact.rearmed hq
  | false =>
    rw [hq, if_neg Bool.false_ne_true] at ha
    have halarm : r'.hyp.alarm = r.hyp.alarm := hreact.kept hq
    rw [halarm, hi.sched_step h, Sched.react_deadlines _ _ hq hi.cur.2]
    exact hc tick ha

/-- What every state of a run satisfies once the timer has been armed. -/
def ArmedState.Covers (b : Boot P) (s : ArmedState P) : Prop :=
  Running b s.run ∧ ∀ tick, s.armed = some tick → Covered s.run.sched.deadlines tick s.run.hyp.alarm

theorem ArmedState.Covers.step {s s' : ArmedState P} (hi : s.Covers b) (h : s.step t = some s') :
    s'.Covers b := by
  obtain ⟨r', hr', rfl⟩ := Option.map_eq_some_iff.mp h
  exact ⟨hi.1.step hr', hi.1.covered_step hr' hi.2⟩

theorem ArmedState.Covers.run {s s' : ArmedState P} {ts : List Trap} (hi : s.Covers b)
    (h : Library.Transition.run ArmedState.step s ts = some s') : s'.Covers b :=
  run_invariant (fun _ _ _ hi hstep => hi.step hstep) hi h

theorem Boot.runArmed_covered {ts : List Trap} {s : ArmedState P} (h : b.runArmed ts = some s) :
    s.Covers b := by
  obtain ⟨h0, h0r, hs, hvms, hctx⟩ := b.main_spec
  have hinit : Running b { hyp := h0, lastTrap := fun _ => none } :=
    ⟨⟨0, hs⟩, hvms, fun i g hg _ => hctx i g hg, fun _ _ => rfl⟩
  rw [Boot.runArmed, h0r] at h
  refine ArmedState.Covers.run ⟨hinit, fun tick ha => ?_⟩ h
  by_cases hrearm : b.rearm = true
  · rw [if_pos hrearm] at ha
    rw [← Option.some.inj ha]
    exact b.main_covered h0r hrearm
  · rw [if_neg hrearm] at ha
    cases ha

/-- The state in which the timer is programmed anew. -/
def RunState.rearm (r : RunState P) : ArmedState P :=
  ⟨{ r with hyp := hvVtimerRearmPhysical r.hyp }, some (r.hyp.sysClo 0)⟩

theorem Running.rearm_covers (hi : Running b r) : r.rearm.Covers b := by
  have hcore := toCore_hvVtimerRearmPhysical r.hyp
  refine ⟨hi.setHyp hcore, fun tick ha => ?_⟩
  have hcovered := hvVtimerRearmPhysical_covered r.hyp
  rw [← hcore, Option.some.inj ha] at hcovered
  exact hcovered

/-- Both from a boot, once the timer has been armed, and from any state that has just armed it. -/
theorem timer_covers_deadlines (b : Boot P) (ts : List Trap) (s : ArmedState P) :
    (∀ tick, b.runArmed ts = some s → s.armed = some tick → TimerCovers s.run.hyp tick) ∧
      ∀ r before, b.run before = some r → run ArmedState.step r.rearm ts = some s →
        ∃ tick, s.armed = some tick ∧ TimerCovers s.run.hyp tick := by
  refine ⟨fun tick hrun ha => ((Boot.runArmed_covered hrun).2 tick ha).timerCovers,
    fun r before hbefore hrun => ?_⟩
  have hcovers := (Boot.run_running hbefore).rearm_covers.run hrun
  have harmed : s.armed ≠ none := by
    refine run_invariant (P := fun s : ArmedState P => s.armed ≠ none) ?_ (by simp [RunState.rearm]) hrun
    rintro s t s' hs hstep
    obtain ⟨r', -, rfl⟩ := Option.map_eq_some_iff.mp hstep
    dsimp only
    split
    · simp
    · exact hs
  obtain ⟨tick, ha⟩ := Option.ne_none_iff_exists'.mp harmed
  exact ⟨tick, ha, (hcovers.2 tick ha).timerCovers⟩

/-- A delay of the first guest, with the periodic timer of the second. -/
theorem timer_covers_delay : ∃ s, (twoGuests 0).runArmed [hypercallTrap hypercallTimerDelayTicks 100,
    hypercallTrap hypercallYield 0] = some s ∧ s.armed = some 500 ∧
      TimerCovers s.run.hyp 500 := by
  have heval : ((twoGuests 0).runArmed [hypercallTrap hypercallTimerDelayTicks 100,
      hypercallTrap hypercallYield 0]).map (fun s => s.armed) = some (some 500) := by
    decide +kernel
  obtain ⟨s, hs, ha⟩ := Option.map_eq_some_iff.mp heval
  exact ⟨s, hs, ha, (timer_covers_deadlines (twoGuests 0) _ s).1 500 hs ha⟩

end PiPervisor.Hv
