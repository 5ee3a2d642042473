import PiPervisor.Hv.IrqSpec

/-! # Invariants of the handlers

The handlers change the machine by a few kinds of writes. A property that each
of these keeps is kept by every exception handler, whatever the state it finds
and however it ends.
-/
namespace PiPervisor.Hv
open Stage2

variable {P : Platform}

/-- The property survives every kind of write that a handler makes. -/
structure Closed (I : Core P → Prop) : Prop where
  setVcpu : ∀ m i v, I m → I (m.setVcpu i v)
  select : ∀ (m : Core P) idx cur, I m →
    I { m with scheduler := { m.scheduler with curIdx := idx, curVcpu := cur } }
  setFrame : ∀ (m : Core P) frame, I m → I (m.setFrame frame)
  setHcr : ∀ (m : Core P) hcr, I m → I (m.setHcr hcr)
  restore : ∀ (m : Core P) banked vbar, I m →
    I { m with cpu := { m.cpu with banked := banked, vbar := vbar } }
  activate : ∀ m i, I m → I (m.activate i)

namespace Closed

variable {I : Core P → Prop} (hI : Closed I)
include hI

section Scheduler
variable {h : Hyp P} (i : VcpuIdx P)

theorem load {m : Core P} (hm : I m) : I (m.load i) := by
  let context := (m.vcpu i).context
  have hvcpu := hI.setVcpu m i
    { m.vcpu i with context := { context with vbar := context.sysRegs.vbar } } hm
  exact hI.setFrame _ context.hypState (hI.restore _ context.bankedRegs context.sysRegs.vbar hvcpu)

theorem start {m : Core P} (hm : I m) : I (m.start i) := hI.select _ _ _ (hI.setVcpu m i _ hm)

theorem stopRunning (hh : I h.toCore) : I (stopRunning h i).toCore := by
  rw [toCore_stopRunning]
  exact hI.setVcpu _ _ _ hh

theorem virqSync (vcpu : Option (VcpuIdx P)) (hh : I h.toCore) : I (hvVirqSync h vcpu).toCore := by
  rcases vcpu with - | c
  · exact hI.setHcr _ _ hh
  · rw [toCore_hvVirqSync]
    exact hI.setHcr _ _ hh

theorem switchTo (hh : I h.toCore) : I (hvSchedulerSwitchTo h i).2.toCore := by
  have hnext {h0 : Hyp P} (hh0 : I h0.toCore) : I (hvVirqSync (hvVcpuLoad (hvMmuActivateVcpu
      (hvSchedulerSyncTraps (startRunning h0 i) i) i) i) (some i)).toCore := by
    rw [toCore_hvVirqSync, toCore_hvVcpuLoad, toCore_hvMmuActivateVcpu,
      toCore_hvSchedulerSyncTraps, toCore_startRunning]
    exact hI.setHcr _ _ (hI.load i (hI.activate _ i (hI.setHcr _ _ (hI.start i hh0))))
  rw [hvSchedulerSwitchTo]
  apply hnext
  rw [apply_ite Hyp.toCore, toCore_trace, ite_self]
  split
  · exact hh
  · exact hI.stopRunning _ (hI.setVcpu _ _ _ hh)

theorem enterIdle (hh : I h.toCore) : I (hvSchedulerEnterIdle h).2.toCore := by
  rw [hvSchedulerEnterIdle]
  split
  · apply hI.virqSync
    rw [toCore_hvMmuActivateVcpu, toCore_hvSchedulerSyncTraps]
    refine hI.activate _ _ (hI.setHcr _ _ ?_)
    exact hI.select _ _ h.scheduler.curVcpu (hI.setVcpu h.toCore _ _ hh)
  · exact hI.switchTo _ hh

theorem schedulerYield (hh : I h.toCore) : I (hvSchedulerYield h).2.toCore := by
  rw [hvSchedulerYield]
  split
  · exact hh
  · dsimp only
    split
    · exact hI.setVcpu _ _ _ (hI.setVcpu _ _ _ hh)
    · split
      · exact hI.setVcpu _ _ _ (hI.setVcpu _ _ _ hh)
      · exact hI.switchTo _ (hI.setVcpu _ _ _ hh)

theorem advance (hh : I h.toCore) : I (hvSchedulerAdvance h).2.toCore := by
  rw [hvSchedulerAdvance]
  split
  · exact hI.enterIdle hh
  · dsimp only
    split
    · exact hI.enterIdle (hI.stopRunning _ hh)
    · exact hI.switchTo _ (hI.stopRunning _ hh)

theorem handleWfi (hh : I h.toCore) : I (hvSchedulerHandleWfi h).2.toCore := by
  have hskip : I (hvSchedulerAdvanceTrappedWfi h).toCore := hI.setFrame _ _ hh
  rw [hvSchedulerHandleWfi]
  split
  · exact hI.enterIdle hh
  · split
    · exact hI.enterIdle hh
    · dsimp only
      split
      · exact hI.virqSync _ hskip
      · exact hI.advance (hI.setVcpu _ _ _ hskip)

theorem rearmAdvance (hh : I h.toCore) :
    I (hvSchedulerAdvance (hvVtimerRearmPhysical h)).2.toCore := by
  apply hI.advance
  rw [toCore_hvVtimerRearmPhysical]
  exact hh

theorem stopCurrent (hh : I h.toCore) : I (stopCurrentGuestVcpu h i).2.toCore :=
  hI.rearmAdvance (hI.setVcpu _ _ _ (hI.setVcpu _ _ _ hh))

end Scheduler

end Closed

section Handlers
variable {I : Core P → Prop} {h h1 : Hyp P} {r r' : HypResult P}

/-- Every state with which a handler comes back has the property. -/
def ResultHas (I : Core P → Prop) (r : HypResult P) : Prop := ∀ a h', r = .ok (a, h') → I h'.toCore

theorem ResultHas.ok {res : HypExceptAction × Hyp P} (hr : I res.2.toCore) :
    ResultHas I (.ok res) := by
  rintro a h' he
  cases he
  exact hr

theorem ResultHas.error {e : HypFault} : ResultHas I (.error e : HypResult P) := by
  rintro a h' he
  cases he

theorem ResultHas.ite {c : Prop} [Decidable c] (hr : ResultHas I r) (hr' : ResultHas I r') :
    ResultHas I (if c then r else r') := by
  split
  · exact hr
  · exact hr'

theorem ResultHas.hypAssert {c : Bool} {msg : String} (hr : ResultHas I r) :
    ResultHas I (hypAssert c msg >>= fun _ => r) := by
  cases c with
  | false => exact .error
  | true => exact hr

theorem ResultHas.haltWith (hh : I h.toCore) (f s : String) (args : List PrintkArg) :
    ResultHas I (haltWith h f s args) := by
  refine .ok ?_
  rw [toCore_trace, hypDumpUnexpectedExceptionState]
  split
  · exact hh
  · rwa [toCore_hypDumpExceptionState]

theorem ResultHas.ownException (hh : I h.toCore) (f s : String) (exceptType : BitVec 32) :
    ResultHas I (handleOwnException f s exceptType h) := by
  rw [handleOwnException]
  exact .hypAssert (ResultHas.haltWith hh f s [])

namespace Closed
variable (hI : Closed I)
include hI

theorem hypercall (hh : I h.toCore) : ResultHas I (hypHandleGuestHypercall h) := by
  have hr0 {h0 : Hyp P} (v : BitVec 32) (hh0 : I h0.toCore) : I (setR0 h0 v).toCore :=
    hI.setFrame _ _ hh0
  have hexit : I (doExit h).2.toCore := by
    rw [doExit]
    split
    · exact hh
    · exact hI.rearmAdvance (hI.setVcpu _ _ _ (hI.setVcpu _ _ _ hh))
  have hclaim : I (doVirqClaim h).2.toCore := by
    rw [doVirqClaim]
    split
    · exact hr0 _ (hI.virqSync _ hh)
    · exact hr0 _ (hI.virqSync _ (hI.setVcpu _ _ _ hh))
  have hcomplete : I (doVirqComplete h).2.toCore := by
    rw [doVirqComplete]
    split
    · exact hr0 _ (hI.virqSync _ hh)
    · exact hr0 _ (hI.virqSync _ (hI.setVcpu _ _ _ hh))
  have hfreq : ResultHas I (doTimerGetFreq h) := by
    rw [doTimerGetFreq]
    split
    · exact .ok (hr0 _ hh)
    · split
      · exact .ok (hr0 _ hh)
      · split
        · exact .error
        · exact .ok (hr0 _ hh)
  have hdelay : I (doTimerDelayTicks h).2.toCore := by
    rw [doTimerDelayTicks]
    split
    · exact hr0 _ hh
    · split
      · exact hr0 _ hh
      · split
        · exact hr0 _ hh
        · apply hI.advance
          apply hr0
          rw [toCore_hvVtimerRearmPhysical]
          exact hI.setVcpu _ _ _ hh
  have hcase := hypHandleGuestHypercall_cases h
  generalize hypHandleGuestHypercall h = result at hcase
  cases hcase with
  | getAbiVersion | getFeatures | putchar | getHypIrqCount | timerGetTicks | unknown =>
    exact .ok (hr0 _ hh)
  | exit => exact .ok hexit
  | yield => exact .ok (hI.schedulerYield hh)
  | virqClaim => exact .ok hclaim
  | virqComplete => exact .ok hcomplete
  | timerGetFreq => exact hfreq
  | timerDelayTicks => exact .ok hdelay

theorem guestAbort (hh : I h.toCore) : I (handleGuestAbort h).2.toCore := by
  have hlog {h1 : Hyp P} (fault : HvStage2FaultInfo) (route : String) (hh1 : I h1.toCore) :
      I (logStage2Fault h1 fault route).toCore := by
    rwa [toCore_logStage2Fault]
  have hmmio {h1 : Hyp P} (cur : VcpuIdx P) (fault : HvStage2FaultInfo) (hh1 : I h1.toCore) :
      I (hvMmioHandleFault h1 cur fault).2.toCore := by
    rcases hvMmioHandleFault_spec h1 cur fault with ⟨-, hcore⟩ | ⟨-, -, g, hcore, -⟩
    · rwa [hcore]
    · rw [hcore]
      exact hI.setFrame _ _ hh1
  have hroute {h1 : Hyp P} (cur : VcpuIdx P) (vm : VmIdx P) (hh1 : I h1.toCore) :
      I (routeGuestAbort h1 cur vm).2.toCore := by
    rw [routeGuestAbort]
    dsimp only
    split
    · exact hI.stopCurrent _ (hlog _ _ hh1)
    · split
      · exact hI.stopCurrent _ (hlog _ _ hh1)
      · split
        · exact hI.setFrame _ _ (hmmio _ _ (hlog _ _ hh1))
        · exact hI.stopCurrent _ (hlog _ _ (hmmio _ _ (hlog _ _ hh1)))
      · split <;> exact hI.stopCurrent _ (hlog _ _ hh1)
  have hcore : I (logGuestAbort h).toCore := by rwa [toCore_logGuestAbort]
  rw [handleGuestAbort]
  split
  · exact hcore
  · split
    · exact hcore
    · split
      · exact hlog _ _ hcore
      · exact hroute _ _ hcore

theorem lowerSync (hh : I h.toCore) : ResultHas I (handleLowerSync h) := by
  rw [handleLowerSync]
  refine .hypAssert (.ite (.hypAssert (.hypAssert (hI.hypercall hh))) ?_)
  refine .ite ?_ (.ite (.ok (hI.guestAbort hh)) ?_)
  · exact .ite (.haltWith hh _ _ _) (.ok (hI.handleWfi hh))
  · exact .ite (.haltWith hh _ _ _) (.haltWith hh _ _ _)

theorem deliverTimers (now : BitVec 64) (l : List (VmIdx P)) (acc acc' : Bool × Hyp P)
    (hacc : I acc.2.toCore) (hr : l.foldlM (deliverExpiredTimer now) acc = .ok acc') :
    I acc'.2.toCore := by
  have hturn {acc1 : Bool × Hyp P} {i : VmIdx P} (acc : Bool × Hyp P) (hacc : I acc.2.toCore)
      (hr : deliverExpiredTimer now acc i = .ok acc1) : I acc1.2.toCore := by
    rw [deliverExpiredTimer] at hr
    dsimp only at hr
    split at hr
    · cases hr
      exact hacc
    · split at hr
      · cases hr
        exact hacc
      · split at hr
        · cases hr
        · cases hr
          exact hI.setVcpu _ _ _ hacc
  induction l generalizing acc with
  | nil =>
    cases hr
    exact hacc
  | cons i l ih =>
    rw [List.foldlM_cons] at hr
    rcases hd : deliverExpiredTimer now acc i with e | acc1
    · rw [hd] at hr
      cases hr
    · rw [hd] at hr
      exact ih acc1 (hturn acc hacc hd) hr

theorem genericTimer (hh : I h.toCore) : ResultHas I (handleGenericTimer h) := by
  have hadvance : I (hvSchedulerAdvance (countIrq (genTimAck h))).2.toCore := hI.advance hh
  rw [handleGenericTimer]
  generalize hvSchedulerAdvance (countIrq (genTimAck h)) = r at hadvance
  rcases r with ⟨action, h1⟩
  dsimp only
  rcases hg : genTimRearm h1 with e | h2
  · exact .error
  · exact .ok ((toCore_genTimRearm hg).symm ▸ hadvance)

theorem bcmTimer (hh : I h.toCore) : ResultHas I (handleBcmTimer h) := by
  rw [handleBcmTimer]
  dsimp only
  rcases hd : deliverExpiredTimers (timSysGetTicks (countIrq (timClearPending h))).2
    ((timSysGetTicks (countIrq (timClearPending h))).1.setWidth 64) with e | acc
  · exact .error
  · have hacc : I acc.2.toCore := hI.deliverTimers _ _ _ acc hh hd
    have hrearm : I (hvVtimerRearmPhysical acc.2).toCore := by rwa [toCore_hvVtimerRearmPhysical]
    have hsync : I (if acc.1 then hvVirqSync (hvVtimerRearmPhysical acc.2)
        (hvSchedulerGetCurrent (hvVtimerRearmPhysical acc.2))
        else hvVtimerRearmPhysical acc.2).toCore := by
      split
      · exact hI.virqSync _ hrearm
      · exact hrearm
    have hfinish (h2 : Hyp P) (hh2 : I h2.toCore) :
        ResultHas I (if hvSchedulerIsIdleVcpu h2 (hvSchedulerGetCurrent h2) then
          .ok (hvSchedulerAdvance h2) else .ok (.actionReturn, h2)) :=
      .ite (.ok (hI.advance hh2)) (.ok hh2)
    exact hfinish _ hsync

/-- Exceptions of every type, in every state, with every action. -/
theorem hypHandleException (hh : I h.toCore) : ResultHas I (hypHandleException h) := by
  have htrace : I (traceException h).toCore := by rwa [toCore_traceException]
  rw [PiPervisor.Hv.hypHandleException]
  refine .ite (.ownException htrace _ _ _) (.ite (.ownException htrace _ _ _) ?_)
  refine .ite (.hypAssert (.ok htrace)) (.ite (.ownException htrace _ _ _) ?_)
  refine .ite (.ownException htrace _ _ _) (.ite (hI.lowerSync htrace) ?_)
  refine .ite ?_ (.ite (.haltWith htrace _ _ _) (.haltWith htrace _ _ _))
  exact .ite (hI.genericTimer htrace) (.ite (hI.bcmTimer htrace) (.haltWith htrace _ _ _))

end Closed

end Handlers

end PiPervisor.Hv
