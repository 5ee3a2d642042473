import PiPervisor.Hv.Alarm
import PiPervisor.Hv.Runs

/-! # The handlers refine the scheduling machine

Every handler that returns serves one request: the scheduling state after it is the
reaction of the scheduling machine, the physical timer covers the deadlines again if
the request may have changed them, and the vCPU that runs is the one switched to.
-/
namespace PiPervisor.Hv
open Stage2 Library.RoundRobin

variable {P : Platform} {b : Boot P} {c j : VcpuIdx P} {m : Core P} {h h' : Hyp P}

section Projection

theorem sched_setVcpu (m : Core P) (k : VcpuIdx P) (v : HvVcpu P) :
    (m.setVcpu k v).sched = m.sched.set k v.status := by
  have hs : (fun k' => ((m.setVcpu k v).vcpu k').status) =
      Function.update (fun k' => (m.vcpu k').status) k v.status :=
    Function.comp_update HvVcpu.status m.scheduler.vcpus k v
  rw [Core.sched, hs]
  rfl

/-- A change outside the status of a vCPU is no change for the scheduler. -/
theorem sched_setVcpu_same {k : VcpuIdx P} {v : HvVcpu P} (hv : v.status = (m.vcpu k).status) :
    (m.setVcpu k v).sched = m.sched := by
  rw [sched_setVcpu, hv]
  exact congrArg (Sched.mk m.scheduler.curIdx) (Function.update_eq_self k _)

theorem status_stopped (v : HvVcpu P) :
    (Core.stopped v).status = v.status.demote (v.id == hvIdleVcpuId) := by
  rw [Core.stopped, VcpuStatus.demote]
  change _ = if v.state = .running then _ else _
  split
  · by_cases hid : v.id = hvIdleVcpuId
    · rw [if_pos hid, beq_iff_eq.mpr hid]
      rfl
    · rw [if_neg hid, beq_eq_false_iff_ne.mpr hid]
      rfl
  · rfl

theorem sched_stop (hr : Roster m) (hi : m.scheduler.curIdx = c) :
    (m.stop c).sched = m.sched.demote := by
  have hid : ((m.vcpu c).id == hvIdleVcpuId) = (c == hvIdleVcpuIdx P) := by
    rw [Bool.eq_iff_iff, beq_iff_eq, beq_iff_eq]
    exact hr.id_eq_iff c
  rw [Core.stop, sched_setVcpu, status_stopped, hid, Sched.demote]
  have hcur : m.sched.cur = c := hi
  rw [hcur]
  rfl

theorem sched_start (m : Core P) (j : VcpuIdx P) : (m.start j).sched = m.sched.start j := by
  have hs := sched_setVcpu m j { m.vcpu j with state := .running }
  exact congrArg (fun s : Sched P => { s with cur := j }) hs

theorem sched_load (m : Core P) (j : VcpuIdx P) : (m.load j).sched = m.sched :=
  sched_setVcpu_same (m := m) (k := j) (v := { m.vcpu j with context :=
    { (m.vcpu j).context with vbar := (m.vcpu j).context.sysRegs.vbar } }) rfl

theorem sched_save (m : Core P) (i : VcpuIdx P) : (m.save i).sched = m.sched :=
  sched_setVcpu_same rfl

theorem sched_switchTo (hr : Roster m) (hi : m.scheduler.curIdx = c) (j : VcpuIdx P) :
    (m.switchTo c j).sched = m.sched.demote.start j := by
  have hk : Keeps m (m.save c) := Keeps.setVcpu m rfl rfl
  have hstop : ((m.save c).stop c).sched = m.sched.demote := by
    rw [sched_stop (hr.keeps hk) hi, sched_save]
  change (((((m.save c).stop c).start j).follow j).load j).sched = _
  rw [sched_load]
  change (((m.save c).stop c).start j).sched = _
  rw [sched_start, hstop]

/-- The scan of the scheduler. -/
theorem hvSchedulerPickNextIdx_eq (h : Hyp P) : hvSchedulerPickNextIdx h = h.sched.pick := rfl

end Projection

section Scheduler

/-- On the way to `h'`, `hv_scheduler_switch_to` is called for the vCPU that is dispatched and no
other; without a call the current vCPU stays. -/
structure SwitchedTo (h : Hyp P) (dispatched : Option (VcpuIdx P)) (h' : Hyp P) : Prop where
  core : match dispatched with
    | none => h'.scheduler.curVcpu = h.scheduler.curVcpu
    | some j => ∃ h1 : Hyp P, h1.scheduler.curVcpu = h.scheduler.curVcpu ∧
        h'.toCore = (hvSchedulerSwitchTo h1 j).2.toCore
  calls : h'.switches = h.switches ++ dispatched.toList

theorem SwitchedTo.none (hc : h'.scheduler.curVcpu = h.scheduler.curVcpu)
    (hs : h'.switches = h.switches) : SwitchedTo h none h' :=
  ⟨hc, hs.trans (List.append_nil _).symm⟩

/-- The call itself. -/
theorem switchedTo_hvSchedulerSwitchTo {h1 : Hyp P}
    (hc : h1.scheduler.curVcpu = h.scheduler.curVcpu) (hs : h1.switches = h.switches)
    (j : VcpuIdx P) : SwitchedTo h (some j) (hvSchedulerSwitchTo h1 j).2 :=
  ⟨⟨h1, hc, rfl⟩, (switches_hvSchedulerSwitchTo h1 j).trans (by rw [hs]; rfl)⟩

/-- Work before and after the scheduler's makes no switch. -/
theorem SwitchedTo.congr {h0 h1 : Hyp P} {dispatched : Option (VcpuIdx P)}
    (hsw : SwitchedTo h1 dispatched h') (hc : h1.scheduler.curVcpu = h.scheduler.curVcpu)
    (hs : h1.switches = h.switches) (hcore : h0.toCore = h'.toCore)
    (hs' : h0.switches = h'.switches) : SwitchedTo h dispatched h0 := by
  obtain ⟨hsw, hcalls⟩ := hsw
  refine ⟨?_, by rw [hs', hcalls, hs]⟩
  cases dispatched with
  | none => exact (congrArg (fun m : Core P => m.scheduler.curVcpu) hcore).trans (hsw.trans hc)
  | some j =>
    obtain ⟨h2, h2c, h2r⟩ := hsw
    exact ⟨h2, h2c.trans hc, hcore.trans h2r⟩

theorem sched_enterIdle (hh : Handling b (hvIdleVcpuIdx P) h.toCore) :
    (hvSchedulerEnterIdle h).2.sched = h.sched.start (hvIdleVcpuIdx P) := by
  rw [(toCore_enterIdle hh.current).2]
  exact sched_start _ _

/-- Any handler may let the scheduler choose. -/
theorem sched_hvSchedulerAdvance (hh : Handling b c h.toCore) :
    (hvSchedulerAdvance h).2.sched = h.sched.choose ∧
      SwitchedTo h h.sched.chosen (hvSchedulerAdvance h).2 := by
  have hstop : Handling b c (stopRunning h c).toCore := by
    rw [toCore_stopRunning]
    exact hh.stop
  have hsched : (stopRunning h c).sched = h.sched.demote := by
    rw [toCore_stopRunning]
    exact sched_stop hh.roster hh.index
  have hcur : (stopRunning h c).scheduler.curVcpu = h.scheduler.curVcpu :=
    hstop.current.trans hh.current.symm
  have hswitches := (sameDevices_stopRunning h c).switches
  have hswitch (next : VcpuIdx P) : (hvSchedulerSwitchTo (stopRunning h c) next).2.sched =
      h.sched.demote.start next := by
    rw [toCore_hvSchedulerSwitchTo _ hstop.current, sched_switchTo hstop.roster hstop.index,
      hsched, Sched.demote_demote]
  rw [Sched.choose, Sched.chosen, ← hsched]
  have hpick := hvSchedulerPickNextIdx_eq (stopRunning h c)
  rcases hp : hvSchedulerPickNextIdx (stopRunning h c) with - | next
  · have hadvance : hvSchedulerAdvance h = hvSchedulerEnterIdle (stopRunning h c) := by
      simp only [hvSchedulerAdvance, hh.current, hp]
    rw [← hpick, hp, hadvance, Option.getD_none]
    dsimp only
    by_cases hc : c = hvIdleVcpuIdx P
    · have hidle : h.sched.cur = hvIdleVcpuIdx P := hh.index.trans hc
      subst hc
      rw [if_pos hidle]
      refine ⟨sched_enterIdle hstop, .none ?_ ?_⟩
      · rw [(toCore_enterIdle hstop.current).2]
        exact hh.current.symm
      · rw [(sameDevices_hvSchedulerEnterIdle _ hstop.current).switches, hswitches]
    · have hidle : h.sched.cur ≠ hvIdleVcpuIdx P := fun he => hc (hh.index.symm.trans he)
      have henter : hvSchedulerEnterIdle (stopRunning h c) =
          hvSchedulerSwitchTo (stopRunning h c) (hvIdleVcpuIdx P) := by
        apply if_neg
        rw [hstop.current]
        exact fun he => hc (Option.some.inj he)
      rw [if_neg hidle, henter]
      exact ⟨(hswitch _).trans (by rw [hsched]), switchedTo_hvSchedulerSwitchTo hcur hswitches _⟩
  · have hadvance : hvSchedulerAdvance h = hvSchedulerSwitchTo (stopRunning h c) next := by
      simp only [hvSchedulerAdvance, hh.current, hp]
    rw [← hpick, hp, hadvance, Option.getD_some]
    exact ⟨(hswitch _).trans (by rw [hsched]), switchedTo_hvSchedulerSwitchTo hcur hswitches _⟩

theorem sched_hvSchedulerYield (hs : Settled b c h.toCore) (hc : c ≠ hvIdleVcpuIdx P) :
    (hvSchedulerYield h).2.sched = h.sched.react .yield ∧
      SwitchedTo h (h.sched.dispatch .yield) (hvSchedulerYield h).2 := by
  have hcur : h.sched.cur = c := hs.index
  have hstatus : h.sched.status c = (h.vcpu c).status := rfl
  have hrunning : (h.vcpu c).status.state = .running := hs.running
  have hidle : (c == hvIdleVcpuIdx P) = false := beq_eq_false_iff_ne.mpr hc
  have hdemote : (setState h c .runnable).sched = h.sched.demote := by
    rw [toCore_setState, sched_setVcpu, Sched.demote, hcur, hstatus, hidle, VcpuStatus.demote,
      if_pos hrunning]
    rfl
  have hrun : Handling b c (setState h c .runnable).toCore :=
    hs.toHandling.setCurrent hc rfl rfl
  have hready : h.sched.demote.ready c = true := by
    apply Sched.ready_of_runnable _ hc
    rw [← hdemote]
    change ((setState h c .runnable).vcpu c).state = _
    rw [toCore_setState, Core.vcpu_setVcpu_self]
  have hpick := hvSchedulerPickNextIdx_eq (setState h c .runnable)
  rw [hdemote] at hpick
  change (hvSchedulerYield h).2.sched = h.sched.choose ∧ SwitchedTo h
    (if Request.yield = .yield ∧ h.sched.chosen = some h.sched.cur then none else h.sched.chosen) _
  rw [Sched.choose, Sched.chosen, ← hpick]
  rcases hp : hvSchedulerPickNextIdx (setState h c .runnable) with - | next
  · rw [hpick] at hp
    rw [find?_ring_none hp c] at hready
    cases hready
  · rw [Option.getD_some]
    dsimp only
    by_cases hn : next = c
    · have hyield : hvSchedulerYield h = (.actionReturn, setState (setState h c .runnable) c .running) := by
        simp only [hvSchedulerYield, hs.current, hp, if_pos hn]
      rw [hyield, if_pos ⟨rfl, congrArg some (hn.trans hcur.symm)⟩, hn]
      refine ⟨?_, .none rfl rfl⟩
      have hstart (s : Sched P) (he : s.cur = c) :
          s.set c { s.status c with state := .running } = s.start c := by
        subst he
        rfl
      rw [toCore_setState, sched_setVcpu, ← hdemote]
      exact hstart _ hrun.index
    · have hyield : hvSchedulerYield h = hvSchedulerSwitchTo (setState h c .runnable) next := by
        simp only [hvSchedulerYield, hs.current, hp, if_neg hn]
      rw [hyield, if_neg fun he => hn ((Option.some.inj he.2).trans hcur)]
      have hstay : (setState h c .runnable).scheduler.curVcpu = h.scheduler.curVcpu := rfl
      refine ⟨?_, switchedTo_hvSchedulerSwitchTo hstay rfl next⟩
      rw [toCore_hvSchedulerSwitchTo _ hrun.current, sched_switchTo hrun.roster hrun.index,
        hdemote, Sched.demote_demote]

end Scheduler

section Requests

/-- A handler that has served `q`. The physical timer covers the deadlines at `tick` if the
request can have changed them, and is left alone otherwise. -/
structure Reacts (h : Hyp P) (q : Request) (tick : BitVec 32) (h' : Hyp P) : Prop where
  sched : h'.sched = h.sched.react q
  rearmed : q.rearms = true → Covered h'.sched.deadlines tick h'.alarm
  kept : q.rearms = false → h'.alarm = h.alarm
  switched : SwitchedTo h (h.sched.dispatch q) h'

theorem Reacts.resume (tick : BitVec 32) (hs : h'.sched = h.sched) (ha : h'.alarm = h.alarm)
    (hc : h'.scheduler.curVcpu = h.scheduler.curVcpu) (hsw : h'.switches = h.switches) :
    Reacts h .resume tick h' :=
  ⟨hs, nofun, fun _ => ha, .none hc hsw⟩

/-- What is sent to the UART does not matter. -/
theorem Reacts.uart {uart : Uart} {q : Request} {tick : BitVec 32}
    (hr : Reacts { h with uart := uart } q tick h') : Reacts h q tick h' :=
  ⟨hr.sched, hr.rearmed, hr.kept, hr.switched.core, hr.switched.calls⟩

/-- A handler that has done its own work and lets the scheduler choose. -/
theorem Reacts.choose {h1 : Hyp P} {q : Request} (tick : BitVec 32)
    (hh : Handling b c h1.toCore) (hq : h.sched.chooses q = true) (hy : q ≠ .yield)
    (hs : h1.sched = h.sched.serve q) (hc : h1.scheduler.curVcpu = h.scheduler.curVcpu)
    (hsw : h1.switches = h.switches)
    (hrearmed : q.rearms = true → Covered h1.sched.deadlines tick h1.alarm)
    (hkept : q.rearms = false → h1.alarm = h.alarm) : Reacts h q tick (hvSchedulerAdvance h1).2 := by
  obtain ⟨hsched, hswitch⟩ := sched_hvSchedulerAdvance hh
  refine ⟨?_, ?_, ?_, ?_⟩
  · rw [hsched, Sched.react, if_pos hq, hs]
  · rw [hsched, Sched.choose_deadlines, alarm_hvSchedulerAdvance]
    exact hrearmed
  · rw [alarm_hvSchedulerAdvance]
    exact hkept
  · rw [hs] at hswitch
    rw [Sched.dispatch_of_chooses _ hq hy]
    exact hswitch.congr hc hsw rfl rfl

/-- What a hypercall asks for; only a delay of no ticks is no delay. -/
def hypercallRequest (h : Hyp P) (c : VcpuIdx P) : Request :=
  if h.frame.r 0 = hypercallExit then .stop
  else if h.frame.r 0 = hypercallYield then .yield
  else if h.frame.r 0 = hypercallVirqClaim then
    .virqs (hvVirqClaim (h.vcpu c)).2.virqPending (hvVirqClaim (h.vcpu c)).2.virqActive
  else if h.frame.r 0 = hypercallVirqComplete then
    .virqs (hvVirqComplete (h.vcpu c) (h.frame.r 1)).2.virqPending
      (hvVirqComplete (h.vcpu c) (h.frame.r 1)).2.virqActive
  else if h.frame.r 0 = hypercallTimerDelayTicks ∧ h.frame.r 1 ≠ 0 then
    .delay ((h.sysClo 0).setWidth 64) ((h.frame.r 1).setWidth 64)
  else .resume

/-- A guest with a pending interrupt does not wait for one. -/
def wfiRequest (h : Hyp P) (c : VcpuIdx P) : Request :=
  if c = hvIdleVcpuIdx P ∨ (h.vcpu c).virqPending ≠ 0 then .resume else .wait

/-- An abort is an access that a device serves, or the end of the guest. -/
def abortRequest (h : Hyp P) (c : VcpuIdx P) : Request :=
  if (hvMmioHandleFault h c (decodeStage2Fault h c)).1 = hvMmioOk then .resume else .stop

/-- The request that the dispatcher finds in the trap frame and the interrupt sources. -/
def request (h : Hyp P) : Request :=
  if h.frame.exceptionType = hypExceptionIrq then
    if genTimIrqPending h then .preempt else .deliver (irqTime h)
  else if hsrEc h.frame.hsr = hsrEcHvcA32 then hypercallRequest h h.scheduler.curIdx
  else if hsrEc h.frame.hsr = hsrEcWfiWfe then wfiRequest h h.scheduler.curIdx
  else abortRequest h h.scheduler.curIdx

/-- The tick at which a handler programs the physical timer: it has read the clock once before,
unless it stops the guest. -/
def rearmTick (h : Hyp P) (q : Request) : BitVec 32 := if q = .stop then h.sysClo 0 else h.sysClo 1

section Congruence
variable (hk : Keeps h.toCore h'.toCore) (hf : h'.frame = h.frame)
include hk hf

theorem abortRequest_congr (c : VcpuIdx P) : abortRequest h' c = abortRequest h c := by
  have hfault : decodeStage2Fault h' c = decodeStage2Fault h c := by
    rw [decodeStage2Fault, decodeStage2Fault, hf, hk.id, hk.vm, hk.vms]
  have hvalue : mmioWriteValue h' (decodeStage2Fault h c) =
      mmioWriteValue h (decodeStage2Fault h c) := by
    funext size reg
    rw [mmioWriteValue, mmioWriteValue, hf]
  have hreq : mmioRequest h' c (decodeStage2Fault h c) =
      mmioRequest h c (decodeStage2Fault h c) := by
    rw [mmioRequest, mmioRequest, hk.vm, hk.vms, hvalue]
  rw [abortRequest, abortRequest, hfault, hvMmioHandleFault_code _ hreq fun i => by rw [hk.vms]]

/-- What a trap asks for is decided by its own data and what the scheduler knows. -/
theorem request_congr (hs : h'.sched = h.sched) (hclo : h'.sysClo = h.sysClo)
    (hgen : genTimIrqPending h' = genTimIrqPending h) : request h' = request h := by
  have hidx : h'.scheduler.curIdx = h.scheduler.curIdx := congrArg Sched.cur hs
  have hstatus (k : VcpuIdx P) : (h'.vcpu k).status = (h.vcpu k).status :=
    congrFun (congrArg Sched.status hs) k
  have hp (k : VcpuIdx P) : (h'.vcpu k).virqPending = (h.vcpu k).virqPending :=
    congrArg VcpuStatus.virqPending (hstatus k)
  have ha (k : VcpuIdx P) : (h'.vcpu k).virqActive = (h.vcpu k).virqActive :=
    congrArg VcpuStatus.virqActive (hstatus k)
  obtain ⟨hcp, hca⟩ := virqs_hvVirqClaim (hp h.scheduler.curIdx) (ha _)
  obtain ⟨hfp, hfa⟩ := virqs_hvVirqComplete (hp h.scheduler.curIdx) (ha _) (h.frame.r 1)
  have habort := abortRequest_congr hk hf h.scheduler.curIdx
  rw [request, request, hidx, habort, hf, hgen, irqTime, irqTime, hclo, hypercallRequest,
    hypercallRequest, hf, hclo, hcp, hca, hfp, hfa, wfiRequest, wfiRequest, hp]

end Congruence

end Requests

section Hypercalls

theorem stopCurrentGuestVcpu_reacts {h1 : Hyp P} (hs : Settled b c h.toCore)
    (hc : c ≠ hvIdleVcpuIdx P) (hcore : h1.toCore = h.toCore) (hclo : h1.sysClo = h.sysClo)
    (hswitches : h1.switches = h.switches) :
    Reacts h .stop (h.sysClo 0) (stopCurrentGuestVcpu h1 c).2 := by
  let h2 : Hyp P := setState (h1.setVcpu c (hvVcpuTimerDisable (h1.vcpu c))) c .exited
  have hcur : h.sched.cur = c := hs.index
  have hstopped : Settled b c h1.toCore := hcore ▸ hs
  have hcore2 : h2.toCore = (h1.toCore.setVcpu c (hvVcpuTimerDisable (h1.vcpu c))).setVcpu c
      { hvVcpuTimerDisable (h1.vcpu c) with state := .exited } := by
    change (setState (h1.setVcpu c _) c .exited).toCore = _
    rw [toCore_setState, toCore_setVcpu, Core.vcpu_setVcpu_self]
  have hsched : h2.sched = h.sched.serve .stop := by
    rw [hcore2, sched_setVcpu, sched_setVcpu, Sched.set_set, hcore, Sched.serve, hcur]
    rfl
  have hhandling : Handling b c h2.toCore := by
    rw [hcore2]
    exact (hstopped.toHandling.setCurrent hc (v := hvVcpuTimerDisable (h1.vcpu c)) rfl rfl).setCurrent
      hc (by simp) (by simp)
  have hrearm := toCore_hvVtimerRearmPhysical h2
  have hcovered := hvVtimerRearmPhysical_covered h2
  have hclo2 : h2.sysClo = h.sysClo := hclo
  rw [hclo2] at hcovered
  change Reacts h .stop _ (hvSchedulerAdvance (hvVtimerRearmPhysical h2)).2
  refine .choose _ (hrearm.symm ▸ hhandling) rfl (by simp) (hrearm.symm ▸ hsched) ?_ ?_ ?_ nofun
  · rw [hrearm]
    exact hhandling.current.trans hs.current.symm
  · exact (switches_hvVtimerRearmPhysical h2).trans hswitches
  · rw [hrearm]
    exact fun _ => hcovered

theorem doTimerDelayTicks_reacts (hs : Settled b c h.toCore) (hc : c ≠ hvIdleVcpuIdx P)
    (hd : h.frame.r 1 ≠ 0) :
    Reacts h (.delay ((h.sysClo 0).setWidth 64) ((h.frame.r 1).setWidth 64)) (h.sysClo 1)
      (doTimerDelayTicks h).2 := by
  let now : BitVec 64 := (h.sysClo 0).setWidth 64
  let ticks : BitVec 64 := (h.frame.r 1).setWidth 64
  let h1 : Hyp P := (timSysGetTicks h).2
  let h2 : Hyp P := h1.setVcpu c (hvVcpuTimerDelay (h.vcpu c) now ticks)
  let h3 : Hyp P := setR0 (hvVtimerRearmPhysical h2) hypercallSuccess
  have hidle : hvSchedulerIsIdleVcpu h (some c) = false := by
    rw [← Bool.not_eq_true, hs.roster.isIdleVcpu]
    exact hc
  have hcode : doTimerDelayTicks h = hvSchedulerAdvance h3 := by
    rw [doTimerDelayTicks, hvSchedulerGetCurrent, hs.current]
    dsimp only
    rw [hidle, if_neg Bool.false_ne_true, if_neg hd]
    rfl
  have hticks : ticks ≠ 0 := by
    intro hz
    refine hd (BitVec.eq_of_toNat_eq ?_)
    have hnat := congrArg BitVec.toNat hz
    rwa [BitVec.toNat_setWidth, Nat.mod_eq_of_lt ((h.frame.r 1).isLt.trans (by decide))] at hnat
  have hdelay : hvVcpuTimerDelay (h.vcpu c) now ticks = hvVcpuBlock { h.vcpu c with
      timer := { (h.vcpu c).timer with enabled := true, deadline := now + ticks } } :=
    if_neg hticks
  have hcur : h.sched.cur = c := hs.index
  have hhandling : Handling b c h2.toCore := by
    change Handling b c (h.toCore.setVcpu c _)
    rw [hdelay]
    exact hs.toHandling.setCurrent hc rfl rfl
  have hsched : h2.sched = h.sched.serve (.delay now ticks) := by
    change (h.toCore.setVcpu c _).sched = _
    rw [sched_setVcpu, hdelay, Sched.serve, hcur]
    rfl
  have hcore3 : h3.toCore = h2.toCore.setFrame
      { h2.frame with r := Function.update h2.frame.r 0 hypercallSuccess } := by
    change (setR0 (hvVtimerRearmPhysical h2) hypercallSuccess).toCore = _
    rw [toCore_setR0, toCore_hvVtimerRearmPhysical]
  have hsched3 : h3.sched = h2.sched := by
    rw [hcore3]
    rfl
  rw [hcode]
  refine .choose _ (hcore3 ▸ hhandling.setFrame _) rfl (by simp) (hsched3.trans hsched) ?_ ?_ ?_
    (by simp [Request.rearms])
  · rw [hcore3]
    rfl
  · exact switches_hvVtimerRearmPhysical h2
  · rw [hsched3]
    exact fun _ => hvVtimerRearmPhysical_covered h2

/-- Claiming and completing put the words of the current vCPU. -/
theorem virqCall_reacts (hs : Settled b c h.toCore) {v : HvVcpu P}
    (hst : v.state = (h.vcpu c).state) (ht : v.timer = (h.vcpu c).timer) (tick r : BitVec 32) :
    Reacts h (.virqs v.virqPending v.virqActive) tick
      (setR0 (hvVirqSync (h.setVcpu c v) (some c)) r) := by
  have hcur : h.sched.cur = c := hs.index
  have hsync := sameDevices_hvVirqSync (h.setVcpu c v) (some c)
  refine ⟨?_, nofun, fun _ => hsync.alarm, .none ?_ hsync.switches⟩
  · have hcore : (hvVirqSync (h.setVcpu c v) (some c)).toCore = (h.toCore.setVcpu c v).syncVirq c :=
      toCore_hvVirqSync ..
    have hv : v.status = { (h.vcpu c).status with
        virqPending := v.virqPending, virqActive := v.virqActive } := by
      rw [HvVcpu.status, hst, ht]
      rfl
    rw [toCore_setR0, hcore]
    change (h.toCore.setVcpu c v).sched = h.sched.serve (.virqs v.virqPending v.virqActive)
    rw [sched_setVcpu, Sched.serve, hcur, hv]
    rfl
  · change (hvVirqSync (h.setVcpu c v) (some c)).scheduler.curVcpu = _
    rw [toCore_hvVirqSync]
    rfl

theorem hvVirqClaim_timer (v : HvVcpu P) : (hvVirqClaim v).2.timer = v.timer := by
  rw [hvVirqClaim]
  split
  · rfl
  · split <;> rfl

theorem hvVirqComplete_timer (v : HvVcpu P) (virq : BitVec 32) :
    (hvVirqComplete v virq).2.timer = v.timer := by
  rw [hvVirqComplete]
  split
  · rfl
  · split <;> rfl

section Dispatch
variable (h) (c)

theorem hypercallRequest_exit (hn : h.frame.r 0 = hypercallExit) : hypercallRequest h c = .stop :=
  if_pos hn

theorem hypercallRequest_yield (hn : h.frame.r 0 = hypercallYield) :
    hypercallRequest h c = .yield := by
  simp only [hypercallRequest, hn]
  rfl

theorem hypercallRequest_claim (hn : h.frame.r 0 = hypercallVirqClaim) : hypercallRequest h c =
    .virqs (hvVirqClaim (h.vcpu c)).2.virqPending (hvVirqClaim (h.vcpu c)).2.virqActive := by
  simp only [hypercallRequest, hn]
  rfl

theorem hypercallRequest_complete (hn : h.frame.r 0 = hypercallVirqComplete) :
    hypercallRequest h c = .virqs (hvVirqComplete (h.vcpu c) (h.frame.r 1)).2.virqPending
      (hvVirqComplete (h.vcpu c) (h.frame.r 1)).2.virqActive := by
  simp only [hypercallRequest, hn]
  rfl

theorem hypercallRequest_delay (hn : h.frame.r 0 = hypercallTimerDelayTicks) :
    hypercallRequest h c = if h.frame.r 1 = 0 then .resume
      else .delay ((h.sysClo 0).setWidth 64) ((h.frame.r 1).setWidth 64) := by
  rw [hypercallRequest, hn, if_neg (by decide), if_neg (by decide), if_neg (by decide),
    if_neg (by decide)]
  by_cases hz : h.frame.r 1 = 0
  · rw [if_pos hz, if_neg fun hd => hd.2 hz]
  · rw [if_neg hz, if_pos ⟨rfl, hz⟩]

theorem hypercallRequest_plain (hn : h.frame.r 0 ∈ plainHypercalls) :
    hypercallRequest h c = .resume := by
  have hother (number : BitVec 32) (hp : number ∉ plainHypercalls) : h.frame.r 0 ≠ number :=
    fun he => hp (he ▸ hn)
  rw [hypercallRequest, if_neg (hother _ (by decide)), if_neg (hother _ (by decide)),
    if_neg (hother _ (by decide)), if_neg (hother _ (by decide)),
    if_neg fun hd => hother _ (by decide) hd.1]

end Dispatch

section Handlers

theorem resume_setR0 {h1 : Hyp P} (hcore : h1.toCore = h.toCore) (halarm : h1.alarm = h.alarm)
    (hswitches : h1.switches = h.switches) (v tick : BitVec 32) :
    Reacts h .resume tick (setR0 h1 v) := by
  refine .resume _ ?_ halarm ?_ hswitches
  · rw [toCore_setR0, hcore]
    rfl
  · rw [toCore_setR0, hcore]
    rfl

theorem doExit_reacts (hs : Settled b c h.toCore) (hc : c ≠ hvIdleVcpuIdx P) :
    Reacts h .stop (h.sysClo 0) (doExit h).2 := by
  have hdo : doExit h = stopCurrentGuestVcpu (trace h "hyp_handle_guest_hypercall"
      "guest exiting, status: %d\n" [.word (h.frame.r 1)]) c := by
    rw [doExit, hvSchedulerGetCurrent, hs.current]
    rfl
  rw [hdo]
  exact stopCurrentGuestVcpu_reacts hs hc rfl rfl rfl

theorem hvSchedulerYield_reacts (hs : Settled b c h.toCore) (hc : c ≠ hvIdleVcpuIdx P)
    (tick : BitVec 32) : Reacts h .yield tick (hvSchedulerYield h).2 := by
  obtain ⟨hsched, hswitch⟩ := sched_hvSchedulerYield hs hc
  exact ⟨hsched, nofun, fun _ => alarm_hvSchedulerYield h, hswitch⟩

theorem doVirqClaim_reacts (hs : Settled b c h.toCore) (tick : BitVec 32) :
    Reacts h (.virqs (hvVirqClaim (h.vcpu c)).2.virqPending (hvVirqClaim (h.vcpu c)).2.virqActive)
      tick (doVirqClaim h).2 := by
  rw [doVirqClaim, hvSchedulerGetCurrent, hs.current]
  exact virqCall_reacts hs (hvVirqClaim_sameRecord (h.vcpu c)).state (hvVirqClaim_timer (h.vcpu c))
    tick _

theorem doVirqComplete_reacts (hs : Settled b c h.toCore) (tick : BitVec 32) :
    Reacts h (.virqs (hvVirqComplete (h.vcpu c) (h.frame.r 1)).2.virqPending
      (hvVirqComplete (h.vcpu c) (h.frame.r 1)).2.virqActive) tick (doVirqComplete h).2 := by
  rw [doVirqComplete, hvSchedulerGetCurrent, hs.current]
  exact virqCall_reacts hs (hvVirqComplete_sameRecord (h.vcpu c) (h.frame.r 1)).state
    (hvVirqComplete_timer (h.vcpu c) (h.frame.r 1)) tick _

/-- A delay of no ticks does nothing. -/
theorem doTimerDelayTicks_zero (hs : Settled b c h.toCore) (hc : c ≠ hvIdleVcpuIdx P)
    (hz : h.frame.r 1 = 0) :
    doTimerDelayTicks h = (.actionReturn, setR0 h hypercallSuccess) := by
  have hidle : hvSchedulerIsIdleVcpu h (some c) = false := by
    rw [← Bool.not_eq_true, hs.roster.isIdleVcpu]
    exact hc
  rw [doTimerDelayTicks, hvSchedulerGetCurrent, hs.current]
  dsimp only
  rw [hidle, if_neg Bool.false_ne_true, if_pos hz]

end Handlers

/-- A hypercall that returns has served its request. -/
theorem hypHandleGuestHypercall_reacts (hs : Settled b c h.toCore) (hc : c ≠ hvIdleVcpuIdx P)
    (hr : hypHandleGuestHypercall h = .ok (.actionReturn, h')) :
    Reacts h (hypercallRequest h c) (rearmTick h (hypercallRequest h c)) h' := by
  have hend {r : HypExceptAction × Hyp P} (he : .ok r = hypHandleGuestHypercall h) : r.2 = h' := by
    rw [hr] at he
    rw [Except.ok.inj he]
  have hd := hypHandleGuestHypercall_dispatched hs hc
  generalize hresult : hypHandleGuestHypercall h = result at hd
  cases hd with
  | exit hn =>
    rw [hypercallRequest_exit c h hn, ← hend hresult.symm]
    exact doExit_reacts hs hc
  | yield hn =>
    rw [hypercallRequest_yield c h hn, ← hend hresult.symm]
    exact hvSchedulerYield_reacts hs hc _
  | claim hn =>
    rw [hypercallRequest_claim c h hn, ← hend hresult.symm]
    exact doVirqClaim_reacts hs _
  | complete hn =>
    rw [hypercallRequest_complete c h hn, ← hend hresult.symm]
    exact doVirqComplete_reacts hs _
  | delay hn =>
    rw [hypercallRequest_delay c h hn, ← hend hresult.symm]
    by_cases hz : h.frame.r 1 = 0
    · rw [if_pos hz, doTimerDelayTicks_zero hs hc hz]
      exact resume_setR0 rfl rfl rfl _ _
    · rw [if_neg hz]
      exact doTimerDelayTicks_reacts hs hc hz
  | result v hn hcore hirq harm hswitches =>
    rw [hypercallRequest_plain c h hn, ← hend hresult.symm]
    refine resume_setR0 hcore ?_ hswitches _ _
    rw [Hyp.alarm, Hyp.alarm, hirq, harm]
  | divides =>
    rw [hr] at hresult
    cases hresult
  | unknown =>
    rw [hr] at hresult
    cases hresult

end Hypercalls

section Wfi

theorem hvSchedulerHandleWfi_reacts (hs : Settled b c h.toCore) (tick : BitVec 32) :
    Reacts h (wfiRequest h c) tick (hvSchedulerHandleWfi h).2 := by
  have hcur : h.sched.cur = c := hs.index
  rw [hvSchedulerHandleWfi, hs.current, wfiRequest]
  dsimp only
  by_cases hc : c = hvIdleVcpuIdx P
  · subst hc
    rw [if_pos ((hs.roster.isIdleVcpu _).mpr rfl), if_pos (.inl rfl)]
    have hstatus : ({ h.sched.status (hvIdleVcpuIdx P) with state := .running } : VcpuStatus) =
        h.sched.status (hvIdleVcpuIdx P) := by
      change ({ (h.vcpu (hvIdleVcpuIdx P)).status with state := .running } : VcpuStatus) = _
      rw [← hs.running]
      rfl
    have hidle := sameDevices_hvSchedulerEnterIdle h hs.current
    refine .resume _ ?_ hidle.alarm ?_ hidle.switches
    · rw [sched_enterIdle hs.toHandling, Sched.start, hstatus, Function.update_eq_self, ← hcur]
    · rw [(toCore_enterIdle hs.current).2]
      exact hs.current.symm
  · rw [if_neg (mt (hs.roster.isIdleVcpu c).mp hc)]
    have hframe : (hvSchedulerAdvanceTrappedWfi h).toCore = h.toCore.setFrame
        { h.frame with elrHyp := h.frame.elrHyp + instrLen h.frame.hsr } := rfl
    by_cases hp : ((hvSchedulerAdvanceTrappedWfi h).vcpu c).virqPending ≠ 0
    · rw [if_pos hp, if_pos (.inr hp)]
      have hsync := sameDevices_hvVirqSync (hvSchedulerAdvanceTrappedWfi h) (some c)
      refine .resume _ ?_ hsync.alarm ?_ hsync.switches
      · rw [toCore_hvVirqSync]
        rfl
      · rw [toCore_hvVirqSync]
        rfl
    · have hwait : ¬ (c = hvIdleVcpuIdx P ∨ (h.vcpu c).virqPending ≠ 0) := not_or.mpr ⟨hc, hp⟩
      rw [if_neg hp, if_neg hwait]
      have hhandling : Handling b c ((hvSchedulerAdvanceTrappedWfi h).setVcpu c
          (hvVcpuBlock (h.vcpu c))).toCore :=
        (hs.toHandling.setFrame _).setCurrent hc (v := hvVcpuBlock (h.vcpu c)) rfl rfl
      refine .choose _ hhandling rfl (by simp) ?_ rfl rfl (by simp [Request.rearms]) fun _ => rfl
      rw [toCore_setVcpu, sched_setVcpu, hframe, Sched.serve, hcur]
      rfl

end Wfi

section Aborts

theorem handleGuestAbort_reacts (hs : Settled b c h.toCore) (hc : c ≠ hvIdleVcpuIdx P) :
    Reacts h (abortRequest h c) (rearmTick h (abortRequest h c)) (handleGuestAbort h).2 := by
  have hresult := handleGuestAbort_result hs hc
  generalize handleGuestAbort h = r at hresult
  cases hresult with
  | stopped hno hcore hclo hswitches =>
    rw [abortRequest, if_neg hno]
    exact stopCurrentGuestVcpu_reacts hs hc hcore hclo hswitches
  | served uart hok =>
    rw [abortRequest, if_pos hok]
    obtain ⟨frame, uart', vuarts, htouch⟩ :=
      hvMmioHandleFault_touches { h with uart := uart } c (decodeStage2Fault h c)
    refine .resume _ ?_ ?_ ?_ ?_ <;>
    · rw [htouch]
      rfl

end Aborts

section Irqs

theorem status_expired (now : BitVec 64) (v : HvVcpu P) : v.status.expired now = expires now v := by
  rw [VcpuStatus.expired, VcpuStatus.live, Bool.and_assoc]
  rfl

theorem timerBusy_iff (v : HvVcpu P) : timerBusy v ↔ v.status.timerRaised = true := by
  rw [timerBusy, hvVirqIsPending_eq v (by decide), hvVirqIsActive_eq v (by decide),
    VcpuStatus.timerRaised, Bool.or_eq_true]
  rfl

theorem status_hvVirqRaise (v : HvVcpu P) :
    (hvVirqRaise v virqTimer).2.status = v.status.raiseTimer := by
  rw [hvVirqRaise_timer, VcpuStatus.raiseTimer]
  by_cases hb : timerBusy v
  · rw [if_pos hb, if_pos ((timerBusy_iff v).mp hb)]
  · rw [if_neg hb, if_neg (mt (timerBusy_iff v).mpr hb), hvVcpuWake]
    dsimp only
    split
    · rename_i hs
      have hs' : v.status.state = .blocked := hs
      rw [if_pos hs']
      rfl
    · rename_i hs
      have hs' : ¬ v.status.state = .blocked := hs
      rw [if_neg hs']
      rfl

/-- The timer moves on by its period, which always comes to an end. -/
theorem status_hvVcpuTimerAdvance {now : BitVec 64} (hn : now.toNat < 2 ^ 32) {v : HvVcpu P}
    (he : v.timer.enabled = true) : (hvVcpuTimerAdvance v now).map HvVcpu.status =
      some { v.status with timer := v.timer.advance now } := by
  rw [hvVcpuTimerAdvance, if_neg (by rw [he]; decide), HvVcpuTimer.advance]
  by_cases hp : v.timer.period = 0
  · rw [if_pos hp, if_pos hp]
    rfl
  · obtain ⟨d, hd, -⟩ := advanceDeadline_isSome hp hn v.timer.deadline
    rw [if_neg hp, if_neg hp, hd]
    rfl

theorem status_delivered {now : BitVec 64} (hn : now.toNat < 2 ^ 32) (v : HvVcpu P) :
    (delivered now v).status = v.status.deliver now := by
  rw [delivered, VcpuStatus.deliver, status_expired]
  by_cases he : expires now v = true
  · have htimer : (hvVirqRaise v virqTimer).2.timer = v.timer := by
      have hs := congrArg VcpuStatus.timer (status_hvVirqRaise v)
      have hraise : v.status.raiseTimer.timer = v.timer := by
        rw [VcpuStatus.raiseTimer]
        split <;> rfl
      exact hs.trans hraise
    have henabled : v.timer.enabled = true := by
      rw [expires, Bool.and_eq_true, hvVcpuTimerExpired, Bool.and_eq_true] at he
      exact he.2.1
    have hadvance := status_hvVcpuTimerAdvance hn (htimer.symm ▸ henabled)
    rw [if_pos he, if_pos he]
    obtain ⟨w, hw, hstatus⟩ := Option.map_eq_some_iff.mp hadvance
    rw [hw, Option.getD_some, hstatus, status_hvVirqRaise, htimer]
    rfl
  · rw [if_neg he, if_neg he]

theorem sched_deliverAll {now : BitVec 64} (hn : now.toNat < 2 ^ 32) (m : Core P) :
    (deliverAll now m).sched = m.sched.serve (.deliver now) := by
  have hs : (fun k => ((deliverAll now m).vcpu k).status) = fun k =>
      if k = hvIdleVcpuIdx P then m.sched.status k else (m.sched.status k).deliver now := by
    funext k
    change (if k = hvIdleVcpuIdx P then m.vcpu k else delivered now (m.vcpu k)).status = _
    split
    · rfl
    · exact status_delivered hn _
  rw [Core.sched, hs]
  rfl

theorem handleGenericTimer_reacts (hs : Settled b c h.toCore) (tick : BitVec 32)
    (hr : handleGenericTimer h = .ok (.actionReturn, h')) : Reacts h .preempt tick h' := by
  have hreact : Reacts h .preempt tick (hvSchedulerAdvance (countIrq (genTimAck h))).2 :=
    .choose tick hs.toHandling rfl nofun rfl rfl rfl nofun fun _ => rfl
  obtain ⟨h1, ha⟩ : ∃ h1, hvSchedulerAdvance (countIrq (genTimAck h)) = (.actionReturn, h1) := by
    obtain ⟨j, h1, ha, -⟩ := hvSchedulerAdvance_spec (h := countIrq (genTimAck h)) hs.toHandling
    exact ⟨h1, ha⟩
  rw [ha] at hreact
  rw [handleGenericTimer, ha] at hr
  rcases hg : genTimRearm h1 with e | h2
  · dsimp only at hr
    rw [hg] at hr
    cases hr
  · dsimp only at hr
    rw [hg] at hr
    cases hr
    have hcore := toCore_genTimRearm hg
    obtain ⟨halarm, hswitches⟩ : h'.alarm = h1.alarm ∧ h'.switches = h1.switches := by
      rw [genTimRearm] at hg
      cases hp : (h1.genTimer.periodTicks != 0) <;> rw [hp] at hg <;> cases hg
      exact ⟨rfl, rfl⟩
    refine ⟨?_, nofun, fun _ => halarm.trans (hreact.kept rfl),
      hreact.switched.congr rfl rfl hcore hswitches⟩
    rw [hcore]
    exact hreact.sched

theorem handleBcmTimer_reacts (hs : Settled b c h.toCore)
    (hr : handleBcmTimer h = .ok (.actionReturn, h')) :
    Reacts h (.deliver (irqTime h)) (h.sysClo 1) h' := by
  have hcur : h.sched.cur = c := hs.index
  have hrearm := toCore_hvVtimerRearmPhysical (bcmDelivered h)
  have hcovered := hvVtimerRearmPhysical_covered (bcmDelivered h)
  have hdelivered : (bcmDelivered h).sched = h.sched.serve (.deliver (irqTime h)) :=
    sched_deliverAll (irqTime_lt h) h.toCore
  have hserves : Serves b c h.toCore (deliverAll (irqTime h) h.toCore) :=
    (Serves.refl hs.toHandling).setVcpus (deliverAll_woken (irqTime_lt h) h.toCore) (if_pos rfl)
  have hcurVcpu : (hvVtimerRearmPhysical (bcmDelivered h)).scheduler.curVcpu = some c := by
    rw [hrearm]
    exact hs.current
  have hsynced : (bcmServed h).sched = (bcmDelivered h).sched ∧
      (bcmServed h).alarm = (hvVtimerRearmPhysical (bcmDelivered h)).alarm ∧
      (bcmServed h).switches = h.switches ∧ Handling b c (bcmServed h).toCore := by
    have hswitches := switches_hvVtimerRearmPhysical (bcmDelivered h)
    rw [bcmServed]
    split
    · have hsync := sameDevices_hvVirqSync (hvVtimerRearmPhysical (bcmDelivered h)) (some c)
      rw [hvSchedulerGetCurrent, hcurVcpu, hsync.alarm, hsync.switches, toCore_hvVirqSync, hrearm]
      exact ⟨rfl, rfl, hswitches, hserves.handling.syncVirq c⟩
    · rw [hrearm]
      exact ⟨rfl, rfl, hswitches, hserves.handling⟩
  obtain ⟨hsched, halarm, hswitches, hhandling⟩ := hsynced
  have hcover : Covered (bcmServed h).sched.deadlines (h.sysClo 1) (bcmServed h).alarm := by
    rw [hsched, halarm]
    exact hcovered
  rw [handleBcmTimer_eq, hvSchedulerGetCurrent, hhandling.current] at hr
  by_cases hc : c = hvIdleVcpuIdx P
  · rw [if_pos ((hhandling.roster.isIdleVcpu c).mpr hc)] at hr
    have hreact : Reacts h (.deliver (irqTime h)) (h.sysClo 1) (hvSchedulerAdvance (bcmServed h)).2 :=
      .choose _ hhandling (beq_iff_eq.mpr (hcur.trans hc)) (by simp) (hsched.trans hdelivered)
        (hhandling.current.trans hs.current.symm) hswitches (fun _ => hcover)
        (by simp [Request.rearms])
    rwa [Except.ok.inj hr] at hreact
  · rw [if_neg (mt (hhandling.roster.isIdleVcpu c).mp hc)] at hr
    cases hr
    have hstay : h.sched.chooses (.deliver (irqTime h)) = false :=
      beq_eq_false_iff_ne.mpr fun he => hc (hcur.symm.trans he)
    refine ⟨?_, fun _ => hcover, by simp [Request.rearms], ?_⟩
    · rw [hsched, hdelivered, Sched.react, hstay]
      rfl
    · rw [Sched.dispatch, hstay]
      exact .none (hhandling.current.trans hs.current.symm) hswitches

end Irqs

section Handlers

theorem request_traceException (h : Hyp P) : request (traceException h) = request h := by
  obtain ⟨uart, he⟩ := traceException_eq h
  have habort : abortRequest { h with uart := uart } h.scheduler.curIdx =
      abortRequest h h.scheduler.curIdx := by
    rw [abortRequest, abortRequest]
    have hres := hvMmioHandleFault_uart h uart (decodeStage2Fault h h.scheduler.curIdx)
      h.scheduler.curIdx
    exact if_congr (by rw [← hres]; rfl) rfl rfl
  rw [he]
  change (if _ then _ else if _ then _ else if _ then _ else
    abortRequest { h with uart := uart } h.scheduler.curIdx) = _
  rw [habort]
  rfl

/-- Every exception that returns has served the request it was taken for. -/
theorem hypHandleException_reacts (hs : Settled b c h.toCore)
    (ht : h.frame.exceptionType = hypExceptionIrq ∨
      h.frame.exceptionType = hypExceptionLowerSync ∧ IdleWaits c h.frame)
    (hr : hypHandleException h = .ok (.actionReturn, h')) :
    Reacts h (request h) (rearmTick h (request h)) h' := by
  obtain ⟨uart, he⟩ := traceException_eq h
  suffices hreact : Reacts (traceException h) (request (traceException h))
      (rearmTick (traceException h) (request (traceException h))) h' by
    rw [request_traceException, he] at hreact
    exact hreact.uart
  have hcore := toCore_traceException h
  have hs' : Settled b c (traceException h).toCore := hcore ▸ hs
  have hframe := frame_traceException h
  have hindex : (traceException h).scheduler.curIdx = c := hs'.index
  rcases ht with ht | ⟨ht, hw⟩
  · rw [hypHandleException_irq ht, handleIrq] at hr
    rw [request, if_pos (hframe ▸ ht)]
    cases hg : genTimIrqPending (traceException h) with
    | true =>
      rw [hg] at hr
      exact handleGenericTimer_reacts hs' _ hr
    | false =>
      rw [hg] at hr
      cases htim : timCheckIrq (traceException h) with
      | true =>
        rw [htim] at hr
        exact handleBcmTimer_reacts hs' hr
      | false =>
        rw [htim] at hr
        cases hr
  · rw [hypHandleException_lowerSync ht] at hr
    have hw' : IdleWaits c (traceException h).frame := hframe.symm ▸ hw
    rw [request, if_neg (by rw [hframe, ht]; decide), hindex]
    by_cases hhvc : hsrEc (traceException h).frame.hsr = hsrEcHvcA32
    · rw [if_pos hhvc]
      rw [handleLowerSync_hvc hhvc] at hr
      split at hr
      · exact hypHandleGuestHypercall_reacts hs' (hw'.guest (by rw [hhvc]; decide)) hr
      · cases hr
    rw [if_neg hhvc]
    by_cases hwfe : hsrEc (traceException h).frame.hsr = hsrEcWfiWfe
    · rw [if_pos hwfe]
      by_cases hiss : hsrIss (traceException h).frame.hsr &&& hsrWfiWfeIsWfe = 0
      · have hreact := hvSchedulerHandleWfi_reacts hs'
          (rearmTick (traceException h) (wfiRequest (traceException h) c))
        rw [handleLowerSync_wfi hwfe hiss] at hr
        rwa [Except.ok.inj hr] at hreact
      · refine absurd hr (handleLowerSync_other hhvc (fun hn => hiss hn.2) ?_ h')
        rw [hwfe]
        decide
    rw [if_neg hwfe]
    by_cases habort : hsrEc (traceException h).frame.hsr = hsrEcPrefetchAbortLower ∨
        hsrEc (traceException h).frame.hsr = hsrEcDataAbortLower
    · have hc := hw'.guest (by rcases habort with ha | ha <;> rw [ha] <;> decide)
      have hreact := handleGuestAbort_reacts hs' hc
      rw [handleLowerSync_abort habort] at hr
      rwa [Except.ok.inj hr] at hreact
    · exact absurd hr (handleLowerSync_other hhvc (fun hn => hwfe hn.1) habort h')

end Handlers

section Runs
variable {r r' : RunState P} {t : Trap}

/-- The scheduling state between two traps. -/
def RunState.sched (r : RunState P) : Sched P := r.hyp.sched

/-- What a trap asks for. -/
def RunState.request (r : RunState P) (t : Trap) : Request := Hv.request (takeTrap r.hyp t)

/-- The vCPU that the handler of a trap passes to `hv_scheduler_switch_to`. -/
def RunState.dispatch (r : RunState P) (t : Trap) : Option (VcpuIdx P) :=
  r.sched.dispatch (r.request t)

/-- A step of a run is a reaction of the scheduling machine. -/
theorem Running.reacts (hi : Running b r) (h : r.step t = some r') :
    Reacts (takeTrap r.hyp t) (r.request t) (rearmTick (takeTrap r.hyp t) (r.request t)) r'.hyp := by
  obtain ⟨c, h', hc, hcan, hr, rfl⟩ := RunState.step_eq_some h
  obtain ⟨j, hs⟩ := hi.settled
  exact hypHandleException_reacts (hs.takeTrap t)
    (hcan.imp_right fun ht => ⟨ht.1, hs.idleWaits ht.2⟩) hr

theorem Running.sched_step (hi : Running b r) (h : r.step t = some r') :
    r'.sched = r.sched.react (r.request t) := (hi.reacts h).sched

/-- The current vCPU of the scheduling state is the one that runs. -/
theorem Running.cur (hi : Running b r) : r.hyp.scheduler.curVcpu = some r.sched.cur ∧
    (r.sched.status r.sched.cur).state = .running := by
  obtain ⟨c, hs⟩ := hi.settled
  have hcur : r.sched.cur = c := hs.index
  rw [hcur]
  exact ⟨hs.current, hs.running⟩

theorem Running.keeps_step (hi : Running b r) (h : r.step t = some r') :
    Keeps r.hyp.toCore r'.hyp.toCore := by
  obtain ⟨c, h', hc, hcan, hr, rfl⟩ := RunState.step_eq_some h
  obtain ⟨j, hs⟩ := hi.settled
  obtain rfl : j = c := Option.some.inj (hs.current.symm.trans hc)
  have hkeeps := (takeTrap_outcome hs hcan hr).keeps
  exact ⟨hkeeps.vms, hkeeps.pools, hkeeps.id, hkeeps.vm⟩

/-- Two machines between which the scheduler sees no difference. -/
structure SameSchedule (r r' : RunState P) : Prop where
  keeps : Keeps r.hyp.toCore r'.hyp.toCore
  sched : r'.sched = r.sched

/-- The same trap is answered in the same way, whatever the guests' own system registers hold. -/
theorem SameSchedule.step {r1 r1' : RunState P} {regs : SystemRegs} (hs : SameSchedule r r1)
    (hi : Running b r) (hi1 : Running b r1) (h : r.step t = some r')
    (h1 : r1.step { t with system := regs } = some r1') : SameSchedule r' r1' := by
  have hreq : r1.request { t with system := regs } = r.request t :=
    request_congr ⟨hs.keeps.vms, hs.keeps.pools, hs.keeps.id, hs.keeps.vm⟩ rfl hs.sched rfl rfl
  refine ⟨((hi.keeps_step h).symm.trans hs.keeps).trans (hi1.keeps_step h1), ?_⟩
  rw [hi1.sched_step h1, hi.sched_step h, hs.sched, hreq]

end Runs

end PiPervisor.Hv
