import PiPervisor.Hv.SyncSpec

/-! # Interrupts, and the handler as a whole

A BCM timer interrupt raises the timer interrupt of every guest whose deadline
has passed, which wakes the guest unless the source is still pending or active.
With the synchronous exceptions this gives the outcome of every handler that
returns.
-/
namespace PiPervisor.Hv
open Stage2 Library.BitField Library.ContextSwitch

variable {P : Platform} {b : Boot P} {c j : VcpuIdx P} {m : Core P}

section Delivery

/-- The guests whose timer a BCM interrupt at `now` delivers. -/
def expires (now : BitVec 64) (v : HvVcpu P) : Bool :=
  !(v.state == .idle || v.state == .exited) && hvVcpuTimerExpired v now

/-- A source that is pending or active cannot be raised. -/
def timerBusy (v : HvVcpu P) : Prop :=
  hvVirqIsPending v virqTimer ∨ hvVirqIsActive v virqTimer

instance (v : HvVcpu P) : Decidable (timerBusy v) := by
  unfold timerBusy
  infer_instance

/-- The record of a guest after the delivery. -/
def delivered (now : BitVec 64) (v : HvVcpu P) : HvVcpu P :=
  if expires now v then (hvVcpuTimerAdvance (hvVirqRaise v virqTimer).2 now).getD v else v

theorem hvVirqRaise_timer (v : HvVcpu P) :
    hvVirqRaise v virqTimer =
      if timerBusy v then (hvVirqErrBusy, v)
      else (0, hvVcpuWake { v with virqPending := v.virqPending ||| 1#32 <<< virqTimer }) :=
  if_neg (by decide)

theorem hvVirqRaise_keeps_timer (v : HvVcpu P) : (hvVirqRaise v virqTimer).2.timer = v.timer := by
  rw [hvVirqRaise_timer]
  split
  · rfl
  · rw [hvVcpuWake]
    split <;> rfl

/-- What a wake-up changes of a record. -/
structure Woken (v v' : HvVcpu P) : Prop where
  id : v'.id = v.id
  vm : v'.vm = v.vm
  context : v'.context = v.context
  state : v'.state = v.state ∨ v.state = .blocked ∧ v'.state = .runnable

theorem Woken.refl (v : HvVcpu P) : Woken v v := ⟨rfl, rfl, rfl, .inl rfl⟩

/-- An expired timer wakes its guest exactly if the source is free. -/
theorem delivered_state {now : BitVec 64} (hn : now.toNat < 2 ^ 32) (v : HvVcpu P) :
    (delivered now v).state =
      if v.state = .blocked ∧ expires now v ∧ ¬ timerBusy v then .runnable else v.state := by
  rw [delivered]
  by_cases he : expires now v = true
  · rw [if_pos he, hvVirqRaise_timer]
    by_cases hb : timerBusy v
    · obtain ⟨t, ht⟩ := hvVcpuTimerAdvance_spec v hn
      rw [if_pos hb, ht, if_neg fun h => h.2.2 hb]
      rfl
    · obtain ⟨t, ht⟩ := hvVcpuTimerAdvance_spec
        (hvVcpuWake { v with virqPending := v.virqPending ||| 1#32 <<< virqTimer }) hn
      rw [if_neg hb, ht]
      apply (hvVcpuWake_state _).trans
      change (if v.state = .blocked then _ else v.state) = _
      by_cases hs : v.state = .blocked
      · rw [if_pos hs, if_pos ⟨hs, he, hb⟩]
      · rw [if_neg hs, if_neg fun h => hs h.1]
  · rw [if_neg he, if_neg fun h => he h.2.1]

theorem delivered_woken {now : BitVec 64} (hn : now.toNat < 2 ^ 32) (v : HvVcpu P) :
    Woken v (delivered now v) := by
  have hrecord : (delivered now v).id = v.id ∧ (delivered now v).vm = v.vm ∧
      (delivered now v).context = v.context := by
    have hwake (w : HvVcpu P) : (hvVcpuWake w).id = w.id ∧ (hvVcpuWake w).vm = w.vm ∧
        (hvVcpuWake w).context = w.context := by
      rw [hvVcpuWake]
      split <;> exact ⟨rfl, rfl, rfl⟩
    rw [delivered]
    split
    · obtain ⟨t, ht⟩ := hvVcpuTimerAdvance_spec (hvVirqRaise v virqTimer).2 hn
      rw [ht, hvVirqRaise_timer]
      split
      · exact ⟨rfl, rfl, rfl⟩
      · exact hwake _
    · exact ⟨rfl, rfl, rfl⟩
  refine ⟨hrecord.1, hrecord.2.1, hrecord.2.2, ?_⟩
  rw [delivered_state hn]
  split
  · rename_i h
    exact .inr ⟨h.1, rfl⟩
  · exact .inl rfl

theorem delivered_of_not_expires {now : BitVec 64} {v : HvVcpu P} (h : expires now v = false) :
    delivered now v = v :=
  if_neg (by rw [h]; decide)

/-- One turn of the loop, if the guest's own loop ends. -/
theorem deliverExpiredTimer_eq {now : BitVec 64} (d : Bool) (h : Hyp P) (i : VmIdx P)
    (ha : (h.vcpu i.castSucc).timer.Advances now) :
    deliverExpiredTimer now (d, h) i = .ok (d || expires now (h.vcpu i.castSucc),
      h.setVcpu i.castSucc (delivered now (h.vcpu i.castSucc))) := by
  have hcond : (h.vcpu i.castSucc).state = .idle ∨ (h.vcpu i.castSucc).state = .exited ∨
      (!hvVcpuTimerExpired (h.vcpu i.castSucc) now) = true ↔
        expires now (h.vcpu i.castSucc) = false := by
    rw [expires]
    cases (h.vcpu i.castSucc).state <;> simp
  rw [deliverExpiredTimer]
  dsimp only
  by_cases he : expires now (h.vcpu i.castSucc) = false
  · rw [if_pos (hcond.mpr he), he, Bool.or_false, delivered_of_not_expires he]
    have hself : h.setVcpu i.castSucc (h.vcpu i.castSucc) = h := by
      rw [Hyp.setVcpu, Core.setVcpu_self]
    rw [hself]
  · rw [if_neg (mt hcond.mp he)]
    rw [Bool.not_eq_false] at he
    have hres : ¬ ((hvVirqRaise (h.vcpu i.castSucc) virqTimer).1 ≠ hvVirqErrBusy ∧
        (hvVirqRaise (h.vcpu i.castSucc) virqTimer).1 ≠ 0) := by
      rw [hvVirqRaise_timer]
      split <;> simp
    obtain ⟨t, ht⟩ := hvVcpuTimerAdvance_of_advances (hvVirqRaise (h.vcpu i.castSucc) virqTimer).2
      ((hvVirqRaise_keeps_timer _).symm ▸ ha)
    rw [if_neg hres, ht, he, Bool.or_true, delivered, if_pos he, ht]
    rfl

/-- The records of all vCPUs at once. -/
def Core.setVcpus (m : Core P) (vcpus : VcpuIdx P → HvVcpu P) : Core P :=
  { m with scheduler := { m.scheduler with vcpus := vcpus } }

/-- The loop delivers to each guest once, whatever the order. -/
theorem foldlM_deliverExpiredTimer {now : BitVec 64} (l : List (VmIdx P)) (hl : l.Nodup)
    (d : Bool) (h : Hyp P) (ha : ∀ i ∈ l, (h.vcpu i.castSucc).timer.Advances now) :
    l.foldlM (deliverExpiredTimer now) (d, h) =
      .ok (d || l.any fun i => expires now (h.vcpu i.castSucc),
        { h with toCore := h.toCore.setVcpus fun k =>
            if k ∈ l.map Fin.castSucc then delivered now (h.vcpu k) else h.vcpu k }) := by
  induction l generalizing d h with
  | nil =>
    rw [List.any_nil, Bool.or_false]
    rfl
  | cons i l ih =>
    obtain ⟨hi, hl⟩ := List.nodup_cons.mp hl
    have hne (k : VmIdx P) (hk : k ∈ l) : k.castSucc ≠ i.castSucc :=
      fun he => hi (Fin.castSucc_injective _ he ▸ hk)
    have harest : ∀ k ∈ l, ((h.setVcpu i.castSucc (delivered now (h.vcpu i.castSucc))).vcpu
        k.castSucc).timer.Advances now := by
      intro k hk
      rw [toCore_setVcpu, Core.vcpu_setVcpu, if_neg (hne k hk)]
      exact ha k (List.mem_cons_of_mem _ hk)
    rw [List.foldlM_cons, deliverExpiredTimer_eq _ _ _ (ha i List.mem_cons_self)]
    change List.foldlM _ _ l = _
    rw [ih hl _ _ harest, List.any_cons, Bool.or_assoc]
    have hany : (l.any fun k => expires now
        ((h.setVcpu i.castSucc (delivered now (h.vcpu i.castSucc))).vcpu k.castSucc)) =
          l.any fun k => expires now (h.vcpu k.castSucc) := by
      rw [Bool.eq_iff_iff, List.any_eq_true, List.any_eq_true]
      refine exists_congr fun k => and_congr_right fun hk => ?_
      rw [toCore_setVcpu, Core.vcpu_setVcpu, if_neg (hne k hk)]
    have hvcpus : (fun k => if k ∈ l.map Fin.castSucc then
        delivered now ((h.setVcpu i.castSucc (delivered now (h.vcpu i.castSucc))).vcpu k)
        else (h.setVcpu i.castSucc (delivered now (h.vcpu i.castSucc))).vcpu k) =
          fun k => if k ∈ (i :: l).map Fin.castSucc then delivered now (h.vcpu k)
            else h.vcpu k := by
      funext k
      simp only [toCore_setVcpu, Core.vcpu_setVcpu, List.map_cons, List.mem_cons]
      by_cases hk : k = i.castSucc
      · have hni : i.castSucc ∉ l.map Fin.castSucc := by
          intro hm
          obtain ⟨k', hk', he⟩ := List.mem_map.mp hm
          exact hne k' hk' he
        rw [hk, if_neg hni, if_pos rfl, if_pos (.inl rfl)]
      · rw [if_neg hk]
        simp only [hk, false_or]
    rw [hany, hvcpus]
    rfl

/-- The guests' records after the delivery; the idle vCPU has no timer. -/
def deliverAll (now : BitVec 64) (m : Core P) : Core P :=
  m.setVcpus fun k => if k = hvIdleVcpuIdx P then m.vcpu k else delivered now (m.vcpu k)

def anyExpires (now : BitVec 64) (m : Core P) : Bool :=
  (List.finRange P.hvMaxVms).any fun i => expires now (m.vcpu i.castSucc)

theorem deliverExpiredTimers_eq {now : BitVec 64} (h : Hyp P)
    (ha : ∀ i : VmIdx P, (h.vcpu i.castSucc).timer.Advances now) :
    deliverExpiredTimers h now =
      .ok (anyExpires now h.toCore, { h with toCore := deliverAll now h.toCore }) := by
  have hvcpus : (fun k => if k ∈ (List.finRange P.hvMaxVms).map Fin.castSucc then
      delivered now (h.vcpu k) else h.vcpu k) =
        fun k => if k = hvIdleVcpuIdx P then h.vcpu k else delivered now (h.vcpu k) := by
    funext k
    by_cases hk : k = hvIdleVcpuIdx P
    · have hni : k ∉ (List.finRange P.hvMaxVms).map Fin.castSucc := by
        intro hm
        obtain ⟨i, -, hi⟩ := List.mem_map.mp hm
        exact castSucc_ne_idle i (hi.trans hk)
      rw [if_neg hni, if_pos hk]
    · obtain ⟨i, rfl⟩ := eq_castSucc_of_ne_idle hk
      rw [if_neg hk, if_pos (List.mem_map.mpr ⟨i, List.mem_finRange i, rfl⟩)]
  rw [deliverExpiredTimers, foldlM_deliverExpiredTimer _ (List.nodup_finRange _) _ _ fun i _ => ha i,
    hvcpus, Bool.false_or]
  rfl

/-- If no timer has expired the delivery changes nothing. -/
theorem deliverAll_of_none {now : BitVec 64} (h : anyExpires now m = false) :
    deliverAll now m = m := by
  have hvcpus : (fun k => if k = hvIdleVcpuIdx P then m.vcpu k else delivered now (m.vcpu k)) =
      m.scheduler.vcpus := by
    funext k
    split
    · rfl
    · rename_i hk
      obtain ⟨i, rfl⟩ := eq_castSucc_of_ne_idle hk
      rw [anyExpires, List.any_eq_false] at h
      have hi := h i (List.mem_finRange i)
      rw [Bool.not_eq_true] at hi
      exact delivered_of_not_expires hi
  rw [deliverAll, hvcpus]
  rfl

theorem deliverAll_woken {now : BitVec 64} (hn : now.toNat < 2 ^ 32) (m : Core P)
    (k : VcpuIdx P) : Woken (m.vcpu k) ((deliverAll now m).vcpu k) := by
  change Woken _ (if k = hvIdleVcpuIdx P then m.vcpu k else delivered now (m.vcpu k))
  split
  · exact .refl _
  · exact delivered_woken hn _

theorem deliverAll_guest (now : BitVec 64) (m : Core P) (i : VmIdx P) :
    (deliverAll now m).vcpu i.castSucc = delivered now (m.vcpu i.castSucc) :=
  if_neg (castSucc_ne_idle i)

/-- Waking guests moves no register and starts nothing. -/
theorem Serves.setVcpus {m1 : Core P} (h : Serves b c m m1) {vcpus : VcpuIdx P → HvVcpu P}
    (hw : ∀ k, Woken (m1.vcpu k) (vcpus k))
    (hidle : vcpus (hvIdleVcpuIdx P) = m1.vcpu (hvIdleVcpuIdx P)) :
    Serves b c m (m1.setVcpus vcpus) := by
  have hk : Keeps m1 (m1.setVcpus vcpus) := ⟨rfl, rfl, fun k => (hw k).id, fun k => (hw k).vm⟩
  have hregs : (m1.setVcpus vcpus).registers = m1.registers := by
    have hsaved : (fun k => ((m1.setVcpus vcpus).vcpu k).context.toCpu) =
        fun k => (m1.vcpu k).context.toCpu :=
      funext fun k => congrArg HvVcpuContext.toCpu (hw k).context
    rw [Core.registers, hsaved]
    rfl
  refine ⟨⟨h.handling.current, h.handling.index, h.handling.roster.keeps hk, ?_, ?_, ?_, ?_⟩,
    h.keeps.trans hk, ?_, ?_⟩
  · intro k hkc hs
    change (vcpus k).state = _ at hs
    rcases (hw k).state with he | ⟨-, he⟩
    · exact h.handling.others k hkc (he.symm.trans hs)
    · rw [he] at hs
      cases hs
  · change (vcpus _).state = _ ∨ _ ∧ (vcpus _).state = _
    rw [hidle]
    exact h.handling.idle
  · intro i hi
    obtain ⟨hs, hne⟩ := h.handling.unused i hi
    refine ⟨?_, hne⟩
    rcases (hw i.castSucc).state with he | ⟨he, -⟩
    · exact he.trans hs
    · rw [hs] at he
      cases he
  · exact h.handling.controls.keeps hk rfl rfl
  · intro k hkc
    rw [hregs]
    exact h.others k hkc
  · intro k hkc
    rw [← h.exited k hkc]
    change (vcpus k).state = _ ↔ _
    rcases (hw k).state with he | ⟨hb, he⟩
    · rw [he]
    · rw [he, hb]
      simp

end Delivery

section Irqs
variable {h : Hyp P}

theorem toCore_genTimRearm {h' : Hyp P} (hr : genTimRearm h = .ok h') : h'.toCore = h.toCore := by
  rw [genTimRearm] at hr
  cases hp : (h.genTimer.periodTicks != 0) with
  | false =>
    rw [hp] at hr
    cases hr
  | true =>
    rw [hp] at hr
    cases hr
    rfl

/-- The periodic timer of the hypervisor makes the scheduler choose. -/
theorem handleGenericTimer_outcome (hs : Settled b c h.toCore) {h' : Hyp P}
    (hr : handleGenericTimer h = .ok (.actionReturn, h')) :
    Outcome b c (fun x => x = h.live) h.toCore h'.toCore := by
  obtain ⟨h1, ha, ho⟩ : ∃ h1, hvSchedulerAdvance (countIrq (genTimAck h)) = (.actionReturn, h1) ∧
      Outcome b c (fun x => x = h.live) h.toCore h1.toCore :=
    Serves.advance (Serves.refl hs.toHandling) fun _ _ => rfl
  rw [handleGenericTimer, ha] at hr
  rcases hg : genTimRearm h1 with e | h2
  · dsimp only at hr
    rw [hg] at hr
    cases hr
  · dsimp only at hr
    rw [hg] at hr
    cases hr
    rw [toCore_genTimRearm hg]
    exact ho

/-- The tick value that a BCM timer interrupt is handled at. -/
def irqTime (h : Hyp P) : BitVec 64 := (h.sysClo 0).setWidth 64

theorem irqTime_lt (h : Hyp P) : (irqTime h).toNat < 2 ^ 32 := by
  rw [irqTime, BitVec.toNat_setWidth]
  exact (Nat.mod_le _ _).trans_lt (h.sysClo 0).isLt

/-- The state in which a BCM timer interrupt decides whether to leave the idle vCPU. -/
theorem bcmTimer_core (hs : Settled b c h.toCore) (h1 : Hyp P)
    (hcore : h1.toCore = deliverAll (irqTime h) h.toCore) :
    ∃ m1, (if anyExpires (irqTime h) h.toCore then hvVirqSync h1 (hvSchedulerGetCurrent h1)
        else h1).toCore = m1 ∧
      Serves b c h.toCore m1 ∧ Synced m1 c ∧ m1.live = h.live ∧
      (∀ k, (m1.vcpu k).state = ((deliverAll (irqTime h) h.toCore).vcpu k).state) := by
  have hserves : Serves b c h.toCore (deliverAll (irqTime h) h.toCore) :=
    (Serves.refl hs.toHandling).setVcpus (deliverAll_woken (irqTime_lt h) h.toCore)
      (if_pos rfl)
  cases he : anyExpires (irqTime h) h.toCore with
  | false =>
    have hnone := deliverAll_of_none he
    refine ⟨_, rfl, ?_⟩
    rw [if_neg Bool.false_ne_true, hcore]
    refine ⟨hserves, ?_, rfl, fun _ => rfl⟩
    rw [hnone]
    exact hs.synced
  | true =>
    have hcur : hvSchedulerGetCurrent h1 = some c := by
      rw [hvSchedulerGetCurrent, hcore]
      exact hs.current
    refine ⟨_, rfl, ?_⟩
    rw [if_pos rfl, hcur, toCore_hvVirqSync, hcore]
    exact ⟨hserves.syncVirq c, synced_syncVirq _ c, rfl, fun _ => rfl⟩

/-- The state in which a BCM timer interrupt has delivered the timers, before it re-arms. -/
def bcmDelivered (h : Hyp P) : Hyp P :=
  { (timSysGetTicks (countIrq (timClearPending h))).2 with
    toCore := deliverAll (irqTime h) h.toCore }

/-- The state in which it decides whether to leave the idle vCPU. -/
def bcmServed (h : Hyp P) : Hyp P :=
  let h1 := hvVtimerRearmPhysical (bcmDelivered h)
  if anyExpires (irqTime h) h.toCore then hvVirqSync h1 (hvSchedulerGetCurrent h1) else h1

theorem handleBcmTimer_eq (h : Hyp P) : handleBcmTimer h =
    if hvSchedulerIsIdleVcpu (bcmServed h) (hvSchedulerGetCurrent (bcmServed h)) then
      .ok (hvSchedulerAdvance (bcmServed h))
    else .ok (.actionReturn, bcmServed h) := by
  rw [handleBcmTimer]
  change (deliverExpiredTimers (timSysGetTicks (countIrq (timClearPending h))).2 (irqTime h) >>=
    _) = _
  rw [deliverExpiredTimers_eq _ fun i => HvVcpuTimer.advances_of_lt _ (irqTime_lt h)]
  rfl

/-- A BCM timer interrupt always returns; it wakes guests, and only the idle vCPU gives way. -/
theorem handleBcmTimer_spec (hs : Settled b c h.toCore) :
    ∃ h', handleBcmTimer h = .ok (.actionReturn, h') ∧
      Outcome b c (fun x => x = h.live) h.toCore h'.toCore ∧
      ∀ i : VmIdx P, (h'.vcpu i.castSucc).state = .blocked ↔
        (delivered (irqTime h) (h.vcpu i.castSucc)).state = .blocked := by
  obtain ⟨m1, hm1, hserves, hsync, hlive, hstate⟩ :=
    bcmTimer_core hs _ (toCore_hvVtimerRearmPhysical (bcmDelivered h))
  have hcore : (bcmServed h).toCore = m1 := hm1
  have hcur : hvSchedulerGetCurrent (bcmServed h) = some c := by
    rw [hvSchedulerGetCurrent, hcore]
    exact hserves.handling.current
  have hblocked (i : VmIdx P) : (m1.vcpu i.castSucc).state = .blocked ↔
      (delivered (irqTime h) (h.vcpu i.castSucc)).state = .blocked := by
    rw [hstate, deliverAll_guest]
  rw [handleBcmTimer_eq, hcur]
  by_cases hc : c = hvIdleVcpuIdx P
  · rw [if_pos ((Roster.isIdleVcpu (hcore ▸ hserves.handling.roster) c).mpr hc)]
    obtain ⟨j, h', hr, hset, hsw⟩ := hvSchedulerAdvance_spec (hcore ▸ hserves.handling)
    rw [hcore] at hsw
    rw [hr]
    refine ⟨h', rfl, hserves.outcome hset hsw fun hne => absurd hc hne, fun i => ?_⟩
    rw [← hblocked i]
    exact hsw.blocked _
  · rw [if_neg (mt (Roster.isIdleVcpu (hcore ▸ hserves.handling.roster) c).mp hc)]
    refine ⟨bcmServed h, rfl, ?_, fun i => hcore ▸ hblocked i⟩
    rw [hcore]
    refine hserves.returns hc ?_ hsync hlive
    rcases (deliverAll_woken (irqTime_lt h) h.toCore c).state with hst | ⟨hst, -⟩
    · rw [hstate, hst, hs.running]
    · rw [hs.running] at hst
      cases hst

theorem handleIrq_outcome (hs : Settled b c h.toCore) {h' : Hyp P}
    (hr : handleIrq h = .ok (.actionReturn, h')) :
    Outcome b c (fun x => x = h.live) h.toCore h'.toCore := by
  rw [handleIrq] at hr
  split at hr
  · exact handleGenericTimer_outcome hs hr
  · split at hr
    · obtain ⟨h1, h1r, ho, -⟩ := handleBcmTimer_spec hs
      rw [h1r] at hr
      cases hr
      exact ho
    · cases hr

end Irqs

end PiPervisor.Hv
