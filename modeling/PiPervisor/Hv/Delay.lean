import PiPervisor.Hv.Exit
import PiPervisor.Hv.TimerWakeup

/-! # Delays in real time

Real time counts microseconds without bound; the clock shows its low word. A delay
never ends before its time, however the clock wraps. It is seen to be over only while
the clock has not wrapped since the delay began: the deadline is a 64-bit sum of
samples of 32 bits, and no later sample reaches a deadline past the wrap.
-/
namespace PiPervisor.Hv
open Library.Transition

variable {P : Platform} {b : Boot P} {r r' : RunState P} {t : Trap} {i : VmIdx P}

/-- A trap whose handler first reads the clock at a real time. -/
structure TimedTrap where
  trap : Trap
  time : ℕ
  clock : trap.sysClo 0 = BitVec.ofNat 32 time

/-- The tick value that a handler computes with at a real time. -/
def tickAt (time : ℕ) : BitVec 64 := (BitVec.ofNat 32 time).setWidth 64

theorem toNat_tickAt (time : ℕ) : (tickAt time).toNat = time % 2 ^ 32 := by
  rw [tickAt, BitVec.toNat_setWidth, BitVec.toNat_ofNat]
  exact Nat.mod_eq_of_lt ((Nat.mod_lt _ (by decide)).trans (by decide))

/-- A call of `HYPERCALL_TIMER_DELAY_TICKS`. -/
def CallsDelay (f : HypExceptState) : Prop :=
  f.exceptionType = hypExceptionLowerSync ∧ hsrEc f.hsr = hsrEcHvcA32 ∧
    f.r 0 = hypercallTimerDelayTicks

instance (f : HypExceptState) : Decidable (CallsDelay f) := by
  unfold CallsDelay
  infer_instance

section Deadline
variable (start delay time : ℕ)

/-- The deadline of a delay that begins at a real time. -/
def deadlineOf (delay : BitVec 32) : BitVec 64 := tickAt start + delay.setWidth 64

theorem toNat_deadlineOf (delay : BitVec 32) :
    (deadlineOf start delay).toNat = start % 2 ^ 32 + delay.toNat := by
  have hlow := Nat.mod_lt start (show 0 < 2 ^ 32 by decide)
  have hd := delay.isLt
  have hdelay : (delay.setWidth 64).toNat = delay.toNat := by
    rw [BitVec.toNat_setWidth, Nat.mod_eq_of_lt (hd.trans (by decide))]
  rw [deadlineOf, BitVec.toNat_add, toNat_tickAt, hdelay]
  omega

/-- The clock does not reach the deadline before its time. -/
theorem mod_lt_deadline (hfrom : start ≤ time) (hto : time < start + delay) :
    time % 2 ^ 32 < start % 2 ^ 32 + delay := by
  omega

/-- In the half of its range that follows the deadline, the clock is past it if and only if it
has not wrapped. -/
theorem deadline_le_iff (hd : delay < 2 ^ 31) (hfrom : start + delay ≤ time)
    (hto : time < start + delay + 2 ^ 31) :
    start % 2 ^ 32 + delay ≤ time % 2 ^ 32 ↔ time / 2 ^ 32 = start / 2 ^ 32 := by
  omega

end Deadline

section Requests

theorem request_callsDelay (r : RunState P) (hcall : CallsDelay t.frame)
    (hd : t.frame.r 1 ≠ 0) :
    r.request t = .delay ((t.sysClo 0).setWidth 64) ((t.frame.r 1).setWidth 64) := by
  obtain ⟨htype, hec, hnumber⟩ := hcall
  have hcall' : hypercallRequest (takeTrap r.hyp t) (takeTrap r.hyp t).scheduler.curIdx =
      .delay ((t.sysClo 0).setWidth 64) ((t.frame.r 1).setWidth 64) :=
    (hypercallRequest_delay _ (takeTrap r.hyp t) hnumber).trans (if_neg hd)
  rw [← hcall', RunState.request, request]
  have htype' : (takeTrap r.hyp t).frame.exceptionType ≠ hypExceptionIrq := by
    change t.frame.exceptionType ≠ _
    rw [htype]
    decide
  rw [if_neg htype']
  exact if_pos hec

theorem request_eq_deliver {now : BitVec 64} (h : r.request t = .deliver now) :
    now = (t.sysClo 0).setWidth 64 := by
  rw [RunState.request, request] at h
  split at h
  · split at h
    · cases h
    · exact (Request.deliver.inj h).symm
  · split at h
    · rw [hypercallRequest] at h
      split_ifs at h
    · split at h
      · rw [wfiRequest] at h
        split_ifs at h
      · rw [abortRequest] at h
        split_ifs at h

theorem request_bcmTimer (hirq : IsBcmTimerIrq (takeTrap r.hyp t)) :
    r.request t = .deliver ((t.sysClo 0).setWidth 64) := by
  obtain ⟨htype, hgen, -⟩ := hirq
  rw [RunState.request, request, if_pos htype, hgen]
  rfl

end Requests

section Waiting

/-- A guest that waits for a deadline. -/
structure WaitsFor (i : VmIdx P) (deadline : BitVec 64) (s : Sched P) : Prop where
  blocked : (s.status i.castSucc).state = .blocked
  enabled : (s.status i.castSucc).timer.enabled = true
  deadline : (s.status i.castSucc).timer.deadline = deadline

theorem WaitsFor.ne_cur {deadline : BitVec 64} (hw : WaitsFor i deadline r.sched)
    (hi : Running b r) : i.castSucc ≠ r.sched.cur := by
  intro he
  have hrun := hi.cur.2
  rw [← he, hw.blocked] at hrun
  cases hrun

/-- The call of a delay blocks the guest until its deadline, and gives the CPU to another. -/
theorem delay_blocks (hi : Running b r) (h : r.step t = some r')
    (hcur : r.hyp.scheduler.curVcpu = some i.castSucc) (hcall : CallsDelay t.frame)
    (hd : t.frame.r 1 ≠ 0) :
    r.dispatch t ≠ some i.castSucc ∧
      WaitsFor i ((t.sysClo 0).setWidth 64 + (t.frame.r 1).setWidth 64) r'.sched := by
  have hq := request_callsDelay r hcall hd
  have hc : r.sched.cur = i.castSucc := Option.some.inj (hi.cur.1.symm.trans hcur)
  let s := r.sched.serve (.delay ((t.sysClo 0).setWidth 64) ((t.frame.r 1).setWidth 64))
  have hstatus : s.status i.castSucc = { r.sched.status r.sched.cur with
      state := .blocked
      timer := { (r.sched.status r.sched.cur).timer with
        enabled := true, deadline := (t.sysClo 0).setWidth 64 + (t.frame.r 1).setWidth 64 } } := by
    rw [← hc]
    exact Function.update_self ..
  have hblocked : (s.status i.castSucc).state = .blocked := by rw [hstatus]
  obtain ⟨hchosen, -, hkeep⟩ := s.choose_of_not_runnable (castSucc_ne_idle i)
    (fun _ => by rw [hblocked]; simp) (by rw [hblocked]; simp)
  have hreact : r'.sched = s.choose := by
    rw [hi.sched_step h, hq]
    rfl
  have hdispatch : r.dispatch t = s.chosen := by
    rw [RunState.dispatch, hq]
    exact Sched.dispatch_of_chooses _ rfl (by simp)
  refine ⟨hdispatch ▸ hchosen, ?_⟩
  · rw [hreact]
    refine ⟨?_, ?_, ?_⟩ <;> rw [hkeep, hstatus]

/-- A step at a time before the deadline leaves a waiting guest alone. -/
theorem WaitsFor.step {deadline : BitVec 64} (hw : WaitsFor i deadline r.sched) (hi : Running b r)
    (h : r.step t = some r') (hbefore : (t.sysClo 0).setWidth 64 < deadline) :
    r.dispatch t ≠ some i.castSucc ∧ WaitsFor i deadline r'.sched := by
  have hserve : (r.sched.serve (r.request t)).status i.castSucc = r.sched.status i.castSucc := by
    apply Sched.serve_status_of_ne _ _ (hw.ne_cur hi)
    intro now hq _
    have hlt : ¬ deadline ≤ now := by
      rw [request_eq_deliver hq]
      exact BitVec.not_le.mpr hbefore
    rw [VcpuStatus.expired, hw.deadline, decide_eq_false hlt, Bool.and_false]
  obtain ⟨hdispatch, -, hstatus⟩ := r.sched.react_of_not_runnable (r.request t)
    (castSucc_ne_idle i) (hw.ne_cur hi) (by rw [hw.blocked]; simp) hserve
  refine ⟨hdispatch, ?_⟩
  rw [hi.sched_step h]
  refine ⟨?_, ?_, ?_⟩ <;> rw [hstatus]
  · exact hw.blocked
  · exact hw.enabled
  · exact hw.deadline

theorem tick_lt_deadline {x : TimedTrap} {start : ℕ} {delay : BitVec 32} (hfrom : start ≤ x.time)
    (hto : x.time < start + delay.toNat) :
    (x.trap.sysClo 0).setWidth 64 < deadlineOf start delay := by
  have hlt := mod_lt_deadline start delay.toNat x.time hfrom hto
  rw [x.clock]
  apply BitVec.lt_def.mpr
  rw [toNat_deadlineOf]
  change (tickAt x.time).toNat < _
  rwa [toNat_tickAt]

/-- A guest that has asked for a delay stays blocked until that many ticks have passed, and nothing
switches to it before. -/
theorem delay_not_early (b : Boot P) (ts : List Trap) (r r1 r2 : RunState P) (i : VmIdx P)
    (t : TimedTrap) (later : List TimedTrap) (hrun : b.run ts = some r)
    (hcur : r.hyp.scheduler.curVcpu = some i.castSucc) (hcall : CallsDelay t.trap.frame)
    (hdelay : t.trap.frame.r 1 ≠ 0) (hstep : r.step t.trap = some r1)
    (hlater : run RunState.step r1 (later.map TimedTrap.trap) = some r2)
    (htimes : ∀ x ∈ later, t.time ≤ x.time ∧ x.time < t.time + (t.trap.frame.r 1).toNat) :
    r.dispatch t.trap ≠ some i.castSucc ∧
      (r2.hyp.vcpu i.castSucc).state = .blocked ∧
      r2.hyp.scheduler.curVcpu ≠ some i.castSucc ∧
      ∀ x r3, t.time ≤ x.time → x.time < t.time + (t.trap.frame.r 1).toNat →
        r2.step (TimedTrap.trap x) = some r3 → r2.dispatch x.trap ≠ some i.castSucc := by
  have hi := b.run_running hrun
  obtain ⟨hdispatch, hwait⟩ := delay_blocks hi hstep hcur hcall hdelay
  rw [t.clock] at hwait
  change WaitsFor i (deadlineOf t.time (t.trap.frame.r 1)) r1.sched at hwait
  have hall : Running b r2 ∧ WaitsFor i (deadlineOf t.time (t.trap.frame.r 1)) r2.sched := by
    have hi1 := hi.step hstep
    clear hstep
    induction later generalizing r1 with
    | nil => exact Option.some.inj hlater ▸ ⟨hi1, hwait⟩
    | cons x later ih =>
      rw [List.map_cons, run_cons, Option.bind_eq_some_iff] at hlater
      obtain ⟨s, hs, hlater⟩ := hlater
      obtain ⟨hfrom, hto⟩ := htimes x List.mem_cons_self
      exact ih s hlater (fun y hy => htimes y (List.mem_cons_of_mem _ hy))
        (hwait.step hi1 hs (tick_lt_deadline hfrom hto)).2 (hi1.step hs)
  obtain ⟨hi2, hwait2⟩ := hall
  refine ⟨hdispatch, hwait2.blocked, fun hc => ?_, fun x r3 hfrom hto hstep3 => ?_⟩
  · exact hwait2.ne_cur hi2 (Option.some.inj (hc.symm.trans hi2.cur.1))
  · exact (hwait2.step hi2 hstep3 (tick_lt_deadline hfrom hto)).1

/-- A delay at a tick, by whoever is current. -/
def delayTrap (now delay : BitVec 32) : Trap :=
  { hypercallTrap hypercallTimerDelayTicks delay with sysClo := fun _ => now }

/-- An early interrupt finds the first guest still waiting. -/
theorem delay_not_early_first : ∃ r r1 r2, (twoGuests 0).run [] = some r ∧
    r.step (delayTrap 500 100) = some r1 ∧ run RunState.step r1 [timerTrap 599] = some r2 ∧
    r.dispatch (delayTrap 500 100) ≠ some 0 ∧ (r2.hyp.vcpu 0).state = .blocked ∧
      r2.hyp.scheduler.curVcpu ≠ some 0 ∧
      ∀ x r3, 500 ≤ x.time → x.time < 500 + 100 →
        r2.step (TimedTrap.trap x) = some r3 → r2.dispatch x.trap ≠ some 0 := by
  have heval : ((twoGuests 0).run []).bind (fun r => (r.step (delayTrap 500 100)).map fun r1 =>
      (r.hyp.scheduler.curVcpu, (run RunState.step r1 [timerTrap 599]).isSome)) =
        some (some 0, true) := by
    decide +kernel
  obtain ⟨r, hr, he⟩ := Option.bind_eq_some_iff.mp heval
  obtain ⟨r1, hr1, he⟩ := Option.map_eq_some_iff.mp he
  obtain ⟨hcur, hlater⟩ := Prod.mk.inj he
  obtain ⟨r2, hr2⟩ := Option.isSome_iff_exists.mp hlater
  refine ⟨r, r1, r2, hr, hr1, hr2, ?_⟩
  exact delay_not_early (twoGuests 0) [] r r1 r2 (firstVm _) ⟨delayTrap 500 100, 500, rfl⟩
    [⟨timerTrap 599, 599, rfl⟩] hr hcur (by decide) (by decide) hr1 hr2
    (fun x hx => by rw [List.mem_singleton.mp hx]; decide)

end Waiting

section Expiry

/-- The guest's timer is seen to be over at a real time, and an interrupt at that time leaves
the timer interrupt of the guest pending or active. -/
def ExpiresAt (r : RunState P) (i : VmIdx P) (time : ℕ) : Prop :=
  hvVcpuTimerExpired (r.hyp.vcpu i.castSucc) (tickAt time) = true ∧
    ∀ (x : TimedTrap) r', x.time = time → IsBcmTimerIrq (takeTrap r.hyp x.trap) →
      r.step x.trap = some r' → timerBusy (r'.hyp.vcpu i.castSucc)

theorem VcpuStatus.raiseTimer_raised (v : VcpuStatus) : v.raiseTimer.timerRaised = true := by
  rw [raiseTimer]
  split
  · assumption
  · rw [timerRaised, Bool.or_eq_true]
    refine .inl ?_
    change (v.virqPending ||| 1).getLsbD 0 = true
    rw [BitVec.getLsbD_or, Bool.or_eq_true]
    exact .inr rfl

/-- An interrupt raises the interrupt of every timer that has expired. -/
theorem timerBusy_of_expired (hi : Running b r) (h : r.step t = some r')
    (hirq : IsBcmTimerIrq (takeTrap r.hyp t))
    (hx : (r.sched.status i.castSucc).expired ((t.sysClo 0).setWidth 64) = true) :
    timerBusy (r'.hyp.vcpu i.castSucc) := by
  let now : BitVec 64 := (t.sysClo 0).setWidth 64
  have hserve : ((r.sched.serve (.deliver now)).status i.castSucc).timerRaised = true := by
    have hstatus : (r.sched.serve (.deliver now)).status i.castSucc =
        { (r.sched.status i.castSucc).raiseTimer with
          timer := (r.sched.status i.castSucc).timer.advance now } :=
      (if_neg (castSucc_ne_idle i)).trans (if_pos hx)
    rw [hstatus]
    exact VcpuStatus.raiseTimer_raised _
  rw [timerBusy_iff]
  change (r'.sched.status i.castSucc).timerRaised = true
  rw [hi.sched_step h, request_bcmTimer hirq, Sched.react]
  split
  · rw [(Sched.choose_rest _).1]
    exact hserve
  · exact hserve

theorem Running.not_idle {ts : List Trap} (hi : Running b r)
    (h : Library.Transition.run RunState.step r ts = some r') (hs : (r.sched.status i.castSucc).state ≠ .idle) :
    (r'.sched.status i.castSucc).state ≠ .idle := by
  have hall : Running b r' ∧ (r'.sched.status i.castSucc).state ≠ .idle := by
    refine run_invariant (P := fun r => Running b r ∧ (r.sched.status i.castSucc).state ≠ .idle)
      ?_ ⟨hi, hs⟩ h
    rintro r t r' ⟨hi, hs⟩ hstep
    refine ⟨hi.step hstep, ?_⟩
    rw [hi.sched_step hstep]
    exact Sched.react_not_idle _ _ (castSucc_ne_idle i) hs
  exact hall.2

/-- A delay has expired when its ticks have passed exactly if the low word of the clock, which is
all that the expiry scan looks at, has not wrapped since the call. -/
theorem delay_expires_iff (b : Boot P) (ts : List Trap) (r r1 r2 : RunState P) (i : VmIdx P)
    (t : TimedTrap) (later : List Trap) (time : ℕ) (hrun : b.run ts = some r)
    (hcur : r.hyp.scheduler.curVcpu = some i.castSucc) (hcall : CallsDelay t.trap.frame)
    (hdelay : t.trap.frame.r 1 ≠ 0) (hsmall : (t.trap.frame.r 1).toNat < 2 ^ 31)
    (hstep : r.step t.trap = some r1) (hlater : run RunState.step r1 later = some r2)
    (hkept : (r2.hyp.vcpu i.castSucc).timer = (r1.hyp.vcpu i.castSucc).timer)
    (hfrom : t.time + (t.trap.frame.r 1).toNat ≤ time)
    (hto : time < t.time + (t.trap.frame.r 1).toNat + 2 ^ 31) :
    ExpiresAt r2 i time ↔ time / 2 ^ 32 = t.time / 2 ^ 32 := by
  have hi := b.run_running hrun
  have hi1 := hi.step hstep
  have hi2 := hi1.run hlater
  obtain ⟨-, hwait⟩ := delay_blocks hi hstep hcur hcall hdelay
  rw [t.clock] at hwait
  change WaitsFor i (deadlineOf t.time (t.trap.frame.r 1)) r1.sched at hwait
  have henabled : (r2.hyp.vcpu i.castSucc).timer.enabled = true := by
    rw [hkept]
    exact hwait.enabled
  have hdeadline : (r2.hyp.vcpu i.castSucc).timer.deadline =
      deadlineOf t.time (t.trap.frame.r 1) := by
    rw [hkept]
    exact hwait.deadline
  have hcounts : (r2.sched.status i.castSucc).counts = true := by
    have hidle := hi1.not_idle hlater (i := i) (by rw [hwait.blocked]; simp)
    have hexit : (r2.sched.status i.castSucc).state ≠ .exited := by
      intro hx
      have hone : run RunState.step r [t.trap] = some r1 := by
        rw [run_cons, hstep]
        rfl
      have hrun2 := b.run_append (b.run_append hrun hone) hlater
      have hoff := b.run_exited hrun2 _ hx
      rw [henabled] at hoff
      cases hoff
    rw [VcpuStatus.counts, Bool.not_eq_true', Bool.or_eq_false_iff, beq_eq_false_iff_ne,
      beq_eq_false_iff_ne]
    exact ⟨hidle, hexit⟩
  have hexpired : hvVcpuTimerExpired (r2.hyp.vcpu i.castSucc) (tickAt time) = true ↔
      time / 2 ^ 32 = t.time / 2 ^ 32 := by
    rw [hvVcpuTimerExpired, henabled, hdeadline, Bool.true_and, decide_eq_true_iff, ge_iff_le,
      BitVec.le_def, toNat_deadlineOf, toNat_tickAt]
    exact deadline_le_iff _ _ _ hsmall hfrom hto
  refine ⟨fun hx => hexpired.mp hx.1, fun hw => ⟨hexpired.mpr hw, fun x r' hx hirq hstep' => ?_⟩⟩
  apply timerBusy_of_expired hi2 hstep' hirq
  have hover := hexpired.mpr hw
  rw [hvVcpuTimerExpired, Bool.and_eq_true] at hover
  rw [x.clock, hx, VcpuStatus.expired, VcpuStatus.live, hcounts, Bool.true_and, Bool.and_eq_true]
  exact hover

/-- A delay of the first guest that is over long before the clock wraps. -/
theorem delay_expires_first : ∃ r r1, (twoGuests 0).run [] = some r ∧
    r.step (delayTrap 500 100) = some r1 ∧
    (ExpiresAt r1 (firstVm _) 700 ↔ 700 / 2 ^ 32 = 500 / 2 ^ 32) := by
  have heval : ((twoGuests 0).run []).bind (fun r => (r.step (delayTrap 500 100)).map fun _ =>
      r.hyp.scheduler.curVcpu) = some (some 0) := by
    decide +kernel
  obtain ⟨r, hr, he⟩ := Option.bind_eq_some_iff.mp heval
  obtain ⟨r1, hr1, hcur⟩ := Option.map_eq_some_iff.mp he
  refine ⟨r, r1, hr, hr1, ?_⟩
  exact delay_expires_iff (twoGuests 0) [] r r1 r1 (firstVm _) ⟨delayTrap 500 100, 500, rfl⟩ []
    700 hr hcur (by decide) (by decide) (by decide) hr1 rfl rfl (by decide) (by decide)

/-- A delay of 100 that begins 50 ticks before the clock wraps is not over 60 ticks after it. -/
theorem delay_lost_at_wrap : ∃ r r1 r2, (twoGuests 0).run [] = some r ∧
    r.hyp.scheduler.curVcpu = some 0 ∧ CallsDelay (delayTrap 0xffffffce 100).frame ∧
    (0xffffffce : BitVec 32) = BitVec.ofNat 32 (2 ^ 32 - 50) ∧
    r.step (delayTrap 0xffffffce 100) = some r1 ∧
    2 ^ 32 - 50 + 100 ≤ 2 ^ 32 + 60 ∧ 2 ^ 32 + 60 < 2 ^ 32 - 50 + 100 + 2 ^ 31 ∧
    hvVcpuTimerExpired (r1.hyp.vcpu 0) (tickAt (2 ^ 32 + 60)) = false ∧
    IsBcmTimerIrq (takeTrap r1.hyp (timerTrap 60)) ∧ r1.step (timerTrap 60) = some r2 ∧
    (r2.hyp.vcpu 0).state = .blocked ∧ ¬ timerBusy (r2.hyp.vcpu 0) := by
  have heval : ((twoGuests 0).run []).bind (fun r =>
      (r.step (delayTrap 0xffffffce 100)).bind fun r1 => (r1.step (timerTrap 60)).map fun r2 =>
        decide (r.hyp.scheduler.curVcpu = some 0 ∧
          hvVcpuTimerExpired (r1.hyp.vcpu 0) (tickAt (2 ^ 32 + 60)) = false ∧
          IsBcmTimerIrq (takeTrap r1.hyp (timerTrap 60)) ∧
          (r2.hyp.vcpu 0).state = .blocked ∧ ¬ timerBusy (r2.hyp.vcpu 0))) = some true := by
    decide +kernel
  obtain ⟨r, hr, he⟩ := Option.bind_eq_some_iff.mp heval
  obtain ⟨r1, hr1, he⟩ := Option.bind_eq_some_iff.mp he
  obtain ⟨r2, hr2, he⟩ := Option.map_eq_some_iff.mp he
  obtain ⟨hcur, hlate, hirq, hblocked, hbusy⟩ := of_decide_eq_true he
  exact ⟨r, r1, r2, hr, hcur, by decide, by decide, hr1, by decide, by decide, hlate, hirq, hr2,
    hblocked, hbusy⟩

end Expiry

end PiPervisor.Hv
