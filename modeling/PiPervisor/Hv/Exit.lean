import PiPervisor.Hv.SchedRefinement

/-! # Exit is final

A guest that has exited, by its own call or because of an abort, is never switched to
again. Its timer is off, its interrupts stay as they were, and no re-arming of the
physical timer takes it into account.
-/
namespace PiPervisor.Hv
open Library.Transition

variable {P : Platform} {b : Boot P} {r r' : RunState P} {t : Trap}

/-- Whoever has exited has no timer, from the boot on. -/
theorem Boot.run_exited {ts : List Trap} (h : b.run ts = some r) (k : VcpuIdx P)
    (hk : (r.hyp.vcpu k).state = .exited) : (r.hyp.vcpu k).timer.enabled = false := by
  obtain ⟨h0, h0r, hs, hvms, hctx⟩ := b.main_spec
  have hinit : Running b { hyp := h0, lastTrap := fun _ => none } :=
    ⟨⟨0, hs⟩, hvms, fun i g hg _ => hctx i g hg, fun _ _ => rfl⟩
  have hall : Running b r ∧ ∀ k, (r.sched.status k).state = .exited →
      (r.sched.status k).timer.enabled = false := by
    rw [Boot.run, h0r] at h
    refine run_invariant (P := fun r => Running b r ∧ ∀ k, (r.sched.status k).state = .exited →
      (r.sched.status k).timer.enabled = false) ?_ ⟨hinit, ?_⟩ h
    · rintro r t r' ⟨hi, hoff⟩ hstep
      refine ⟨hi.step hstep, fun k hx => ?_⟩
      rw [hi.sched_step hstep] at hx ⊢
      exact Sched.react_exited _ _ hoff hx
    · intro k hx
      have hx' : (h0.vcpu k).state = .exited := hx
      rcases b.main_states h0r k with hst | hst | hst <;> rw [hst] at hx' <;> cases hx'
  exact hall.2 k hk

/-- A step of the machine leaves a guest that has exited as it is. -/
theorem Running.exited_step (hi : Running b r) (h : r.step t = some r') {i : VmIdx P}
    (hx : (r.sched.status i.castSucc).state = .exited) :
    r.dispatch t ≠ some i.castSucc ∧ r'.sched.cur ≠ i.castSucc ∧
      r'.sched.status i.castSucc = r.sched.status i.castSucc := by
  have hcur : i.castSucc ≠ r.sched.cur := by
    intro he
    have hrun := hi.cur.2
    rw [← he, hx] at hrun
    cases hrun
  have hserve : (r.sched.serve (r.request t)).status i.castSucc = r.sched.status i.castSucc := by
    apply Sched.serve_status_of_ne _ _ hcur
    intro now _ _
    rw [VcpuStatus.expired, VcpuStatus.live, VcpuStatus.counts, hx]
    rfl
  rw [RunState.dispatch, hi.sched_step h]
  exact Sched.react_of_not_runnable _ _ (castSucc_ne_idle i) hcur (by rw [hx]; simp) hserve

/-- The deadline of a vCPU that has exited is not looked at. -/
theorem earliestDeadline_of_exited (h : Hyp P) (k : VcpuIdx P) {v : HvVcpu P}
    (hk : (h.vcpu k).state = .exited) (hv : v.state = .exited) :
    earliestDeadline (h.setVcpu k v) = earliestDeadline h := by
  have hdead {w : HvVcpu P} (hw : w.state = .exited) : hasLiveTimer w = false := by
    rw [hasLiveTimer, hw]
    rfl
  rw [earliestDeadline, earliestDeadline]
  congr 1
  funext earliest i
  rw [toCore_setVcpu, Core.vcpu_setVcpu]
  by_cases he : i.castSucc = k
  · rw [if_pos he, he]
    dsimp only
    rw [hdead hk, hdead hv]
    rfl
  · rw [if_neg he]

/-- A guest after it has exited with the record `v`. -/
structure Departed (i : VmIdx P) (v : HvVcpu P) (r : RunState P) : Prop where
  exited : (r.hyp.vcpu i.castSucc).state = .exited
  notCurrent : r.hyp.scheduler.curVcpu ≠ some i.castSucc
  timer : (r.hyp.vcpu i.castSucc).timer.enabled = false
  pending : (r.hyp.vcpu i.castSucc).virqPending = v.virqPending
  active : (r.hyp.vcpu i.castSucc).virqActive = v.virqActive
  silent : ∀ timer, earliestDeadline (r.hyp.setVcpu i.castSucc
    { r.hyp.vcpu i.castSucc with timer := timer }) = earliestDeadline r.hyp

/-- A guest that has exited is never switched to again, whatever happens afterwards. Its timer is
off and is not programmed for, and its interrupts stay as they are. -/
theorem exited_stays_departed (b : Boot P) (ts ts' : List Trap) (r r' : RunState P) (i : VmIdx P)
    (hrun : b.run ts = some r) (hexit : (r.hyp.vcpu i.castSucc).state = .exited)
    (hlater : run RunState.step r ts' = some r') :
    Departed i (r.hyp.vcpu i.castSucc) r' ∧
      ∀ t r'', r'.step t = some r'' → r'.dispatch t ≠ some i.castSucc := by
  have hi := b.run_running hrun
  obtain ⟨hi', hstatus⟩ : Running b r' ∧
      r'.sched.status i.castSucc = r.sched.status i.castSucc := by
    refine run_invariant (P := fun r' => Running b r' ∧
      r'.sched.status i.castSucc = r.sched.status i.castSucc) ?_ ⟨hi, rfl⟩ hlater
    rintro s t s' ⟨hs, he⟩ hstep
    exact ⟨hs.step hstep, (hs.exited_step hstep (by rw [he]; exact hexit)).2.2.trans he⟩
  have hx : (r'.sched.status i.castSucc).state = .exited := by
    rw [hstatus]
    exact hexit
  refine ⟨⟨hx, ?_, ?_, congrArg VcpuStatus.virqPending hstatus,
    congrArg VcpuStatus.virqActive hstatus, fun timer => earliestDeadline_of_exited _ _ hx hx⟩,
    fun t r'' hstep => (hi'.exited_step hstep hx).1⟩
  · intro hcur
    have hrunning := hi'.cur.2
    rw [Option.some.inj (hi'.cur.1.symm.trans hcur), hx] at hrunning
    cases hrunning
  · have htimer : (r'.hyp.vcpu i.castSucc).timer = (r.hyp.vcpu i.castSucc).timer :=
      congrArg VcpuStatus.timer hstatus
    rw [htimer]
    exact b.run_exited hrun _ hexit

/-- The first guest exits, and the second yields. -/
theorem exited_stays_departed_first : ∃ r r',
    (twoGuests 0).run [hypercallTrap hypercallExit 0] = some r ∧
      run RunState.step r [hypercallTrap hypercallYield 0, timerTrap 700] = some r' ∧
      Departed (firstVm _) (r.hyp.vcpu 0) r' ∧
      ∀ t r'', r'.step t = some r'' → r'.dispatch t ≠ some 0 := by
  have heval : ((twoGuests 0).run [hypercallTrap hypercallExit 0]).map (fun r =>
      ((r.hyp.vcpu 0).state, (run RunState.step r
        [hypercallTrap hypercallYield 0, timerTrap 700]).isSome)) = some (.exited, true) := by
    decide +kernel
  obtain ⟨r, hr, he⟩ := Option.map_eq_some_iff.mp heval
  obtain ⟨hexit, hlater⟩ := Prod.mk.inj he
  obtain ⟨r', hr'⟩ := Option.isSome_iff_exists.mp hlater
  exact ⟨r, r', hr, hr',
    exited_stays_departed (twoGuests 0) _ _ r r' (firstVm _) hr hexit hr'⟩

end PiPervisor.Hv
