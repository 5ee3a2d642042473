import PiPervisor.Hv.Runs

/-! # Guests keep their registers

Whatever happens between two runs of a guest, it resumes with the registers of
its own last trap, up to what the handler of that trap returns to it. Only the
first entry of the first guest falls short: it loads everything but VBAR.
-/
namespace PiPervisor.Hv
open Library.ContextSwitch

variable {P : Platform} {b : Boot P}

/-- The current guest has the registers that it must resume, or start, with. -/
def ResumesInContext (b : Boot P) (r : RunState P) : Prop :=
  ∀ i : VmIdx P, r.hyp.scheduler.curVcpu = some i.castSucc →
    match r.lastTrap i.castSucc with
    | some t => Resumed t.context r.hyp.live
    | none => ∃ g, b.guests i = some g ∧ ∀ vcpu : HvVcpu P, r.hyp.live =
        (hvVcpuInit vcpu (BitVec.ofNat 32 i) g.entryPoint g.stackTop g.cpsr).context.toCpu

/-- A trap and its handler change no register of another vCPU. -/
def ChangesOwnContext (r : RunState P) : Prop :=
  ∀ t r' c, r.step t = some r' → r.hyp.scheduler.curVcpu = some c →
    ∀ k ≠ c, r'.hyp.registers.context k = r.hyp.registers.context k

theorem startContext_of_vbar (hv : b.reset.cpu.vbar = 0) (i : VmIdx P) (g : GuestBoot) :
    startContext b i g = (initialContext g.entryPoint g.stackTop g.cpsr).toCpu := by
  rw [startContext]
  split
  · rw [hv]
    rfl
  · rfl

theorem Running.resumesInContext {r : RunState P} (hr : Running b r)
    (hv : b.reset.cpu.vbar = 0) : ResumesInContext b r := by
  intro i hi
  obtain ⟨c, hs⟩ := hr.settled
  obtain rfl : c = i.castSucc := Option.some.inj (hs.current.symm.trans hi)
  have hlive : r.hyp.registers.context i.castSucc = r.hyp.live := Registers.context_current hi
  have hguest : b.guests i ≠ none := fun hn => (hs.unused i hn).2 rfl
  obtain ⟨g, hg⟩ := Option.ne_none_iff_exists'.mp hguest
  have hcont := hr.continues i g hg (by rw [hs.running]; simp)
  rw [Continues, hlive] at hcont
  cases hl : r.lastTrap i.castSucc with
  | some t =>
    rw [hl] at hcont
    exact hcont
  | none =>
    rw [hl] at hcont
    exact ⟨g, hg, fun _ => hcont.trans (startContext_of_vbar hv i g)⟩

/-- The first guest is entered with the VBAR of the boot. -/
theorem vbar_of_resumesInContext {r : RunState P} (hr : b.run [] = some r)
    (h : ResumesInContext b r) : b.reset.cpu.vbar = 0 := by
  obtain ⟨h0, h0r, hs, -, hctx⟩ := b.main_spec
  obtain ⟨g, hg⟩ := Option.ne_none_iff_exists'.mp b.guests_first
  rw [Boot.run, h0r] at hr
  cases hr
  have hlive : h0.registers.context (firstVm P).castSucc = h0.live :=
    Registers.context_current hs.current
  obtain ⟨g', hg', hinit⟩ := h (firstVm P) hs.current
  have hstart := hctx (firstVm P) g hg
  rw [hlive] at hstart
  rw [hstart, startContext, if_pos rfl] at hinit
  exact congrArg CpuContext.vbar (hinit (h0.vcpu 0))

/-- Every vCPU resumes with the registers of its last trap, or those it starts with, and no handler
changes any but those of the vCPU that trapped, exactly if VBAR is zero at the boot: the entry of
the first vCPU does not load VBAR. -/
theorem contexts_preserved_iff (b : Boot P) :
    (∀ ts r, b.run ts = some r → ResumesInContext b r ∧ ChangesOwnContext r) ↔
      b.reset.cpu.vbar = 0 := by
  constructor
  · intro h
    obtain ⟨r, hr⟩ := b.run_nil
    exact vbar_of_resumesInContext hr (h [] r hr).1
  · intro hv ts r hr
    have hrun := b.run_running hr
    exact ⟨hrun.resumesInContext hv, fun t r' c hstep hc => hrun.others hstep hc⟩

/-- A yield to the second guest, and back when that waits for its timer. -/
theorem contexts_preserved_after_yield : ∃ r, (twoGuests 0).run [hypercallTrap hypercallYield 0,
    hypercallTrap hypercallTimerDelayTicks 100] = some r ∧
      ResumesInContext (twoGuests 0) r ∧ ChangesOwnContext r := by
  obtain ⟨r, hr⟩ := twoGuests_runs
  exact ⟨r, hr, (contexts_preserved_iff (twoGuests 0)).mpr rfl _ r hr⟩

/-- Entered with another VBAR, the first guest does not start with the context it was given. -/
theorem first_entry_keeps_vbar :
    ∃ r, (twoGuests 5).run [] = some r ∧ ¬ ResumesInContext (twoGuests 5) r := by
  have heval : ((twoGuests 5).run []).map (fun r => (r.hyp.scheduler.curVcpu,
      (r.lastTrap 0).isNone, r.hyp.live.vbar)) = some (some 0, true, 5) := by
    decide +kernel
  obtain ⟨r, hr, he⟩ := Option.map_eq_some_iff.mp heval
  rw [Prod.mk.injEq, Prod.mk.injEq] at he
  obtain ⟨hcur, hlast, hvbar⟩ := he
  refine ⟨r, hr, fun h => ?_⟩
  have h0 := h (firstVm _) hcur
  have hnone : r.lastTrap (firstVm Platform.twoSlots).castSucc = none :=
    Option.isNone_iff_eq_none.mp hlast
  rw [hnone] at h0
  obtain ⟨g, -, hlive⟩ := h0
  have hzero : (5 : BitVec 32) = 0 :=
    hvbar.symm.trans (congrArg CpuContext.vbar (hlive (r.hyp.vcpu 0)))
  exact absurd hzero (by decide)

end PiPervisor.Hv
