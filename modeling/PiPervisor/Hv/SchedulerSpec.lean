import PiPervisor.Hv.Invariant

/-! # The scheduler keeps the invariant

One lemma for each entry point of the scheduler: from the middle of a handler
it reaches a state in which a vCPU runs again, and it changes no vCPU's
context. The round-robin scan finds a runnable guest whenever there is one.
-/
namespace PiPervisor.Hv
open Stage2 Library.BitField Library.ContextSwitch

variable {P : Platform} {b : Boot P} {c j : VcpuIdx P} {m : Core P}

section Stopped
variable (v : HvVcpu P)

theorem stopped_ne_running : (Core.stopped v).state ≠ .running := by
  rw [Core.stopped_state]
  split
  · split <;> simp
  · assumption

theorem stopped_of_ne_running {v : HvVcpu P} (h : v.state ≠ .running) : Core.stopped v = v :=
  if_neg h

theorem stopped_blocked : (Core.stopped v).state = .blocked ↔ v.state = .blocked := by
  rw [Core.stopped_state]
  split
  · rename_i h
    rw [h]
    split <;> simp
  · rfl

theorem stopped_exited : (Core.stopped v).state = .exited ↔ v.state = .exited := by
  rw [Core.stopped_state]
  split
  · rename_i h
    rw [h]
    split <;> simp
  · rfl

/-- The idle vCPU goes back to waiting. -/
theorem Handling.stopped_idle (h : Handling b c m) :
    (Core.stopped (m.vcpu (hvIdleVcpuIdx P))).state = .idle := by
  rw [Core.stopped_state, if_pos h.roster.idle_id]
  rcases h.idle with hs | ⟨-, hs⟩ <;> simp [hs]

end Stopped

theorem Controls.keeps {hcr : BitVec 32} {m' : Core P} (h : Controls hcr m c) (hk : Keeps m m')
    (hh : m'.cpu.hcr = m.cpu.hcr) (hv : m'.cpu.vttbr = m.cpu.vttbr) : Controls hcr m' c where
  twi := by rw [hh]; exact h.twi
  vm := by rw [hh, hk.vm]; exact h.vm
  vttbr vm hvm := by
    rw [hk.vm] at hvm
    rw [hv, hk.vms]
    exact h.vttbr vm hvm
  other := by rw [hh]; exact h.other

theorem Handling.controls_switchTo (h : Handling b c m) (j : VcpuIdx P) :
    Controls b.hcr (m.switchTo c j) j := by
  have hf : Controls b.hcr ((((m.save c).stop c).start j).follow j) j :=
    controls_follow (m := ((m.save c).stop c).start j) h.controls.other j
  have hl : Controls b.hcr (((((m.save c).stop c).start j).follow j).load j) j :=
    hf.keeps (Core.keeps_load _ _) rfl rfl
  exact hl.syncVirq j

/-- A switch to a guest that can run, or to the idle vCPU when none can. -/
theorem Handling.switchTo (h : Handling b c m)
    (hused : ∀ i : VmIdx P, j = i.castSucc → b.guests i ≠ none)
    (hlast : j = hvIdleVcpuIdx P →
      c ≠ hvIdleVcpuIdx P ∧ (m.vcpu c).state ≠ .running ∧ NoneRunnable m)
    (hready : (m.vcpu j).state ≠ .blocked ∧ (m.vcpu j).state ≠ .exited) :
    Settled b j (m.switchTo c j) ∧ Switched m (m.switchTo c j) := by
  have hk : Keeps m (m.switchTo c j) := Core.keeps_switchTo
  refine ⟨⟨⟨rfl, rfl, h.roster.keeps hk, ?_, ?_, ?_, h.controls_switchTo j⟩, ?_, ?_, ?_⟩,
    ⟨hk, ?_, ?_, ?_⟩⟩
  · intro k hkj
    rw [Core.state_switchTo, if_neg hkj]
    split
    · exact stopped_ne_running _
    · exact h.others k ‹_›
  · rw [Core.state_switchTo]
    split
    · rename_i he
      exact .inr ⟨he.symm, rfl⟩
    · refine .inl ?_
      split
      · rename_i he
        rw [← he]
        exact h.stopped_idle
      · rename_i hne
        exact h.idle.resolve_right fun hc => hne hc.1.symm
  · intro i hi
    have hij : i.castSucc ≠ j := fun he => hused i he.symm hi
    have hic : i.castSucc ≠ c := fun he => (h.unused i hi).2 he.symm
    rw [Core.state_switchTo, if_neg hij, if_neg hic]
    exact ⟨(h.unused i hi).1, hij.symm⟩
  · rw [Core.state_switchTo, if_pos rfl]
  · intro hj i
    obtain ⟨-, hcr, hnone⟩ := hlast hj
    rw [Core.state_switchTo, if_neg (hj ▸ castSucc_ne_idle i)]
    split
    · rename_i he
      rw [stopped_of_ne_running hcr, ← he]
      exact hnone i
    · exact hnone i
  · exact synced_syncVirq _ j
  · rw [Core.registers_switchTo h.current, Registers.context_switchTo]
  · intro k
    rw [Core.state_switchTo]
    split
    · rename_i he
      rw [he]
      exact iff_of_false (by simp) hready.1
    · split
      · rename_i he
        rw [he]
        exact stopped_blocked _
      · rfl
  · intro k
    rw [Core.state_switchTo]
    split
    · rename_i he
      rw [he]
      exact iff_of_false (by simp) hready.2
    · split
      · rename_i he
        rw [he]
        exact stopped_exited _
      · rfl

section PickNext

theorem mem_roundRobin (start i : VcpuIdx P) : i ∈ roundRobin start := by
  have hs := start.isLt
  have hi := i.isLt
  rw [roundRobin, List.mem_map]
  by_cases hlt : start.val < i.val
  · refine ⟨i.val - start.val - 1, List.mem_range.mpr (by omega), Fin.ext ?_⟩
    change (start.val + (i.val - start.val - 1 + 1)) % (P.hvMaxVms + 1) = i.val
    have he : start.val + (i.val - start.val - 1 + 1) = i.val := by omega
    rw [he, Nat.mod_eq_of_lt hi]
  · refine ⟨P.hvMaxVms + i.val - start.val, List.mem_range.mpr (by omega), Fin.ext ?_⟩
    change (start.val + (P.hvMaxVms + i.val - start.val + 1)) % (P.hvMaxVms + 1) = i.val
    have he : start.val + (P.hvMaxVms + i.val - start.val + 1) = i.val + (P.hvMaxVms + 1) := by
      omega
    rw [he, Nat.add_mod_right, Nat.mod_eq_of_lt hi]

theorem pickNext_some {h : Hyp P} (hp : hvSchedulerPickNextIdx h = some j) :
    ∃ i : VmIdx P, j = i.castSucc ∧ (h.vcpu j).state = .runnable := by
  have hj := List.find?_some hp
  rw [Bool.and_eq_true, Bool.not_eq_true', hvSchedulerIsIdleIdx, beq_eq_false_iff_ne, beq_iff_eq] at hj
  obtain ⟨i, hi⟩ := eq_castSucc_of_ne_idle hj.1
  exact ⟨i, hi, hj.2⟩

/-- The scan misses no runnable guest. -/
theorem pickNext_none {h : Hyp P} (hp : hvSchedulerPickNextIdx h = none) :
    NoneRunnable h.toCore := by
  intro i hs
  have hi := List.find?_eq_none.mp hp i.castSucc (mem_roundRobin _ _)
  apply hi
  rw [Bool.and_eq_true, Bool.not_eq_true', hvSchedulerIsIdleIdx, beq_eq_false_iff_ne, beq_iff_eq]
  exact ⟨castSucc_ne_idle i, hs⟩

end PickNext

section Changes

/-- A change of the run state of one vCPU, neither into nor out of blocking or exiting. -/
theorem Switched.setVcpu (m : Core P) {k : VcpuIdx P} {v : HvVcpu P} (hid : v.id = (m.vcpu k).id)
    (hvm : v.vm = (m.vcpu k).vm) (hctx : v.context = (m.vcpu k).context)
    (hblocked : v.state = .blocked ↔ (m.vcpu k).state = .blocked)
    (hexited : v.state = .exited ↔ (m.vcpu k).state = .exited) : Switched m (m.setVcpu k v) := by
  refine ⟨Keeps.setVcpu m hid hvm, by rw [Core.registers_setVcpu hctx], ?_, ?_⟩ <;>
  · intro k'
    rw [Core.vcpu_setVcpu]
    split
    · rename_i he
      rwa [he]
    · rfl

theorem Switched.follow (m : Core P) (k : VcpuIdx P) : Switched m (m.follow k) :=
  ⟨⟨rfl, rfl, fun _ => rfl, fun _ => rfl⟩, rfl, fun _ => .rfl, fun _ => .rfl⟩

theorem Switched.syncVirq (m : Core P) (k : VcpuIdx P) : Switched m (m.syncVirq k) :=
  ⟨⟨rfl, rfl, fun _ => rfl, fun _ => rfl⟩, rfl, fun _ => .rfl, fun _ => .rfl⟩

theorem Handling.follow (h : Handling b c m) : Handling b c (m.follow c) :=
  ⟨h.current, h.index, ⟨h.roster.guest_id, h.roster.guest_vm, h.roster.idle_id, h.roster.idle_vm⟩,
    h.others, h.idle, h.unused, controls_follow h.controls.other c⟩

/-- Starting the current vCPU only makes it running. -/
theorem Handling.start_self (h : Handling b c m) :
    m.start c = m.setVcpu c { m.vcpu c with state := .running } := by
  have hc := h.current
  have hi := h.index
  rcases m with ⟨⟨vm, vcpus, curIdx, curVcpu⟩, pools, cpu, frame⟩
  change curVcpu = some c at hc
  change curIdx = c at hi
  subst hc hi
  rfl

theorem Handling.stop (h : Handling b c m) : Handling b c (m.stop c) :=
  h.setVcpu (Core.stopped_id _) (Core.stopped_vm _) (fun hr => absurd hr (stopped_ne_running _))
    (fun hc => .inl (hc ▸ h.stopped_idle)) (fun i he hi => absurd he (h.unused i hi).2)

theorem Switched.stop (m : Core P) (c : VcpuIdx P) : Switched m (m.stop c) :=
  Switched.setVcpu m (Core.stopped_id _) (Core.stopped_vm _) (Core.stopped_context _) (stopped_blocked _)
    (stopped_exited _)

end Changes

section EntryPoints
variable {h : Hyp P}

theorem toCore_enterIdle (hc : h.scheduler.curVcpu = some (hvIdleVcpuIdx P)) :
    (hvSchedulerEnterIdle h).1 = .actionReturn ∧ (hvSchedulerEnterIdle h).2.toCore =
      ((h.toCore.start (hvIdleVcpuIdx P)).follow (hvIdleVcpuIdx P)).syncVirq (hvIdleVcpuIdx P) := by
  have hstart : h.toCore.start (hvIdleVcpuIdx P) =
      { (setState h (hvIdleVcpuIdx P) .running).toCore with
        scheduler := { (setState h (hvIdleVcpuIdx P) .running).scheduler with
          curIdx := hvIdleVcpuIdx P } } := by
    rw [Core.start, ← hc]
    rfl
  rw [hvSchedulerEnterIdle, if_pos hc, hstart]
  refine ⟨rfl, ?_⟩
  rw [toCore_hvVirqSync, toCore_hvMmuActivateVcpu, toCore_hvSchedulerSyncTraps]
  rfl

/-- The idle vCPU is entered when the guest before it has stopped and no guest can run. -/
theorem hvSchedulerEnterIdle_spec (hh : Handling b c h.toCore)
    (hc : c ≠ hvIdleVcpuIdx P → (h.vcpu c).state ≠ .running) (hnone : NoneRunnable h.toCore) :
    ∃ h', hvSchedulerEnterIdle h = (.actionReturn, h') ∧
      Settled b (hvIdleVcpuIdx P) h'.toCore ∧ Switched h.toCore h'.toCore := by
  by_cases he : c = hvIdleVcpuIdx P
  · subst he
    obtain ⟨hret, hcore⟩ := toCore_enterIdle hh.current
    refine ⟨_, Prod.ext hret rfl, ?_⟩
    rw [hcore, hh.start_self]
    have hidle : (h.vcpu (hvIdleVcpuIdx P)).state = .idle ∨
        (h.vcpu (hvIdleVcpuIdx P)).state = .running := hh.idle.imp_right And.right
    have hsw := Switched.setVcpu h.toCore (k := hvIdleVcpuIdx P)
      (v := { h.vcpu (hvIdleVcpuIdx P) with state := .running }) rfl rfl rfl
      (by rcases hidle with hs | hs <;> simp [hs]) (by rcases hidle with hs | hs <;> simp [hs])
    have hh' := hh.setVcpu (k := hvIdleVcpuIdx P)
      (v := { h.vcpu (hvIdleVcpuIdx P) with state := .running }) rfl rfl (fun _ => rfl)
      (fun _ => .inr ⟨rfl, rfl⟩) (fun i hi => absurd hi.symm (castSucc_ne_idle i))
    refine ⟨⟨hh'.follow.syncVirq _, ?_, ?_, synced_syncVirq _ _⟩,
      (hsw.trans (.follow _ _)).trans (.syncVirq _ _)⟩
    · exact congrArg HvVcpu.state (Core.vcpu_setVcpu_self ..)
    · intro _ i
      change ((h.toCore.setVcpu _ _).vcpu i.castSucc).state ≠ _
      rw [Core.vcpu_setVcpu, if_neg (castSucc_ne_idle i)]
      exact hnone i
  · have hne : h.scheduler.curVcpu ≠ some (hvIdleVcpuIdx P) := by
      rw [hh.current]
      exact fun hi => he (Option.some.inj hi)
    have hs : (h.vcpu (hvIdleVcpuIdx P)).state = .idle := hh.idle.resolve_right fun hi => he hi.1
    rw [hvSchedulerEnterIdle, if_neg hne]
    refine ⟨(hvSchedulerSwitchTo h _).2, rfl, ?_⟩
    rw [toCore_hvSchedulerSwitchTo _ hh.current]
    exact hh.switchTo (fun i hi => absurd hi.symm (castSucc_ne_idle i))
      (fun _ => ⟨he, hc he, hnone⟩) (by rw [hs]; simp)

/-- The switch to the vCPU that the scan found. -/
theorem Handling.switchTo_picked (hh : Handling b c h.toCore)
    (hp : hvSchedulerPickNextIdx h = some j) :
    Settled b j (hvSchedulerSwitchTo h j).2.toCore ∧
      Switched h.toCore (hvSchedulerSwitchTo h j).2.toCore := by
  obtain ⟨i, rfl, hs⟩ := pickNext_some hp
  rw [toCore_hvSchedulerSwitchTo _ hh.current]
  exact hh.switchTo (fun i' hi => Fin.castSucc_injective _ hi ▸ hh.used (by rw [hs]; simp))
    (fun hi => absurd hi (castSucc_ne_idle i)) (by rw [hs]; simp)

/-- Any handler may end by letting the scheduler choose. -/
theorem hvSchedulerAdvance_spec (hh : Handling b c h.toCore) :
    ∃ j h', hvSchedulerAdvance h = (.actionReturn, h') ∧ Settled b j h'.toCore ∧
      Switched h.toCore h'.toCore := by
  have hstop : Handling b c (stopRunning h c).toCore := by
    rw [toCore_stopRunning]
    exact hh.stop
  have hsw : Switched h.toCore (stopRunning h c).toCore := by
    rw [toCore_stopRunning]
    exact .stop _ c
  rcases hp : hvSchedulerPickNextIdx (stopRunning h c) with - | next
  · have hadvance : hvSchedulerAdvance h = hvSchedulerEnterIdle (stopRunning h c) := by
      simp only [hvSchedulerAdvance, hh.current, hp]
    have hc : ((stopRunning h c).vcpu c).state ≠ .running := by
      rw [toCore_stopRunning, Core.stop, Core.vcpu_setVcpu_self]
      exact stopped_ne_running _
    obtain ⟨h', hr, hset, hsw'⟩ := hvSchedulerEnterIdle_spec hstop (fun _ => hc) (pickNext_none hp)
    exact ⟨_, h', hadvance.trans hr, hset, hsw.trans hsw'⟩
  · have hadvance : hvSchedulerAdvance h = hvSchedulerSwitchTo (stopRunning h c) next := by
      simp only [hvSchedulerAdvance, hh.current, hp]
    have hspec := hstop.switchTo_picked hp
    exact ⟨_, (hvSchedulerSwitchTo _ _).2, hadvance, hspec.1, hsw.trans hspec.2⟩

/-- A guest that yields keeps the CPU if it is the only one that can run. -/
theorem hvSchedulerYield_spec (hh : Settled b c h.toCore) (hc : c ≠ hvIdleVcpuIdx P) :
    ∃ j h', hvSchedulerYield h = (.actionReturn, h') ∧ Settled b j h'.toCore ∧
      Switched h.toCore h'.toCore := by
  have hkeep : (setState (setState h c .runnable) c .running).toCore = h.toCore := by
    have hs : ({ h.vcpu c with state := .running } : HvVcpu P) = h.vcpu c := by
      rw [← hh.running]
    simp only [toCore_setState, Core.vcpu_setVcpu_self, hs]
    rw [Core.setVcpu, Core.setVcpu, Function.update_idem, Core.vcpu, Function.update_eq_self]
  have hstay : ∃ j h', (HypExceptAction.actionReturn, setState (setState h c .runnable) c .running) =
      (.actionReturn, h') ∧ Settled b j h'.toCore ∧ Switched h.toCore h'.toCore :=
    ⟨c, _, rfl, hkeep ▸ hh, hkeep ▸ .refl _⟩
  have hrun : Handling b c (setState h c .runnable).toCore :=
    hh.toHandling.setCurrent hc rfl rfl
  have hsw : Switched h.toCore (setState h c .runnable).toCore :=
    .setVcpu h.toCore rfl rfl rfl (by simp [hh.running]) (by simp [hh.running])
  rw [hvSchedulerYield, hh.current]
  dsimp only
  rcases hp : hvSchedulerPickNextIdx (setState h c .runnable) with - | next
  · exact hstay
  · by_cases hn : next = c
    · simp only [if_pos hn]
      exact hstay
    · have hspec := hrun.switchTo_picked hp
      simp only [if_neg hn]
      exact ⟨_, (hvSchedulerSwitchTo _ _).2, rfl, hspec.1, hsw.trans hspec.2⟩

end EntryPoints

end PiPervisor.Hv
