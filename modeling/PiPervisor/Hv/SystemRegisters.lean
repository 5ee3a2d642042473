import PiPervisor.Library.SharedRegister
import PiPervisor.Hv.Closed
import PiPervisor.Hv.SchedRefinement

/-! # The system registers of the guests

A vCPU record declares the CP15 registers of its guest, but of these a context switch
moves VBAR alone. The others stay in the CPU, where no handler touches them and no
decision of the scheduler depends on them, and so the vCPUs share them: a guest that
resumes finds what it left, in two runs that differ in the writes of another vCPU,
exactly if the others have put that back.
-/
namespace PiPervisor.Hv
open Library.SharedRegister

variable {P : Platform} {b : Boot P} {i : VmIdx P} {k : VcpuIdx P}

section Handlers

/-- No write of a handler is to these registers. -/
theorem closed_system (regs : SystemRegs) : Closed fun m : Core P => m.cpu.system = regs where
  setVcpu _ _ _ h := h
  select _ _ _ h := h
  setFrame _ _ h := h
  setHcr _ _ h := h
  restore _ _ _ h := h
  activate _ _ h := h

/-- The vCPU that is entered finds what the one that trapped has left, be it the same or not. -/
theorem RunState.step_system {r r' : RunState P} {t : Trap} (h : r.step t = some r') :
    r'.hyp.cpu.system = t.system := by
  obtain ⟨c, h', -, -, hok, rfl⟩ := RunState.step_eq_some h
  exact (closed_system t.system).hypHandleException (h := takeTrap r.hyp t) rfl _ _ hok

end Handlers

section Turns

/-- A trap, and what its vCPU has made of the registers since it was entered. -/
structure SystemTrap where
  trap : Trap
  writes : SystemRegs → SystemRegs

/-- A state of a run, with the turns that the vCPUs have had, the last of them first. -/
structure SystemState (P : Platform) where
  run : RunState P
  turns : List (Turn (VcpuIdx P) SystemRegs)

/-- The trap is taken with the registers that the vCPU has found, after its writes. -/
def SystemState.trap (s : SystemState P) (t : SystemTrap) : Trap :=
  { t.trap with system := t.writes s.run.hyp.cpu.system }

def SystemState.step (s : SystemState P) (t : SystemTrap) : Option (SystemState P) :=
  match s.run.hyp.scheduler.curVcpu with
  | none => none
  | some c => (s.run.step (s.trap t)).map fun r => ⟨r, ⟨c, t.writes⟩ :: s.turns⟩

variable {s s' : SystemState P} {t : SystemTrap}

theorem SystemState.step_eq_some (h : s.step t = some s') :
    ∃ c, s.run.hyp.scheduler.curVcpu = some c ∧ s.run.step (s.trap t) = some s'.run ∧
      s'.turns = ⟨c, t.writes⟩ :: s.turns := by
  rw [SystemState.step] at h
  rcases hc : s.run.hyp.scheduler.curVcpu with - | c <;> rw [hc] at h
  · cases h
  · obtain ⟨r, hr, rfl⟩ := Option.map_eq_some_iff.mp h
    exact ⟨c, rfl, hr, rfl⟩

/-- The registers in the CPU are those of the turns, and the trap of a vCPU has seen what its
turn left. -/
structure Tracked (b : Boot P) (s : SystemState P) : Prop where
  live : s.run.hyp.cpu.system = value b.reset.cpu.system s.turns
  left : ∀ c, (s.run.lastTrap c).map Trap.system = lastLeft b.reset.cpu.system c s.turns

theorem Tracked.boot {h : Hyp P} (hr : b.main = .ok h) : Tracked b ⟨⟨h, fun _ => none⟩, []⟩ :=
  ⟨b.main_system hr, fun _ => rfl⟩

theorem Tracked.step (hs : Tracked b s) (h : s.step t = some s') : Tracked b s' := by
  obtain ⟨c, hc, hstep, hturns⟩ := SystemState.step_eq_some h
  obtain ⟨c', h', hc', -, -, hrun⟩ := RunState.step_eq_some hstep
  obtain rfl : c = c' := Option.some.inj (hc.symm.trans hc')
  have htrap : (s.trap t).system = value b.reset.cpu.system s'.turns := by
    rw [hturns]
    exact congrArg t.writes hs.live
  refine ⟨(RunState.step_system hstep).trans htrap, fun d => ?_⟩
  rw [hrun, hturns]
  dsimp only
  by_cases hd : d = c
  · rw [hd, Function.update_self]
    refine Eq.trans ?_ (lastLeft_of_eq rfl).symm
    exact congrArg (some ∘ t.writes) hs.live
  · rw [Function.update_of_ne hd, lastLeft_of_ne (Ne.symm hd)]
    exact hs.left d

end Turns

section TwoRuns

/-- Two runs that end in `s` and `s'` after the listed pairs of states, the last of them first: the
traps are the same, and only vCPU `k` may have written something else. -/
inductive TwoRuns (b : Boot P) (k : VcpuIdx P) :
    List (SystemState P × SystemState P) → SystemState P → SystemState P → Prop
  | boot {h : Hyp P} (hmain : b.main = .ok h) :
    TwoRuns b k [] ⟨⟨h, fun _ => none⟩, []⟩ ⟨⟨h, fun _ => none⟩, []⟩
  | step {s s' s1 s1' : SystemState P} {ps : List (SystemState P × SystemState P)}
    {t t' : SystemTrap} (hprev : TwoRuns b k ps s s') (htrap : t.trap = t'.trap)
    (hwrites : s.run.hyp.scheduler.curVcpu ≠ some k → t.writes = t'.writes)
    (hstep : s.step t = some s1) (hstep' : s'.step t' = some s1') :
    TwoRuns b k ((s, s') :: ps) s1 s1'

/-- Guest `i` goes on in both runs, after the traps `t` and `t'` of its own. -/
structure Resumes (i : VmIdx P) (s s' : SystemState P) (t t' : Trap) : Prop where
  cur : s.run.hyp.scheduler.curVcpu = some i.castSucc
  cur' : s'.run.hyp.scheduler.curVcpu = some i.castSucc
  last : s.run.lastTrap i.castSucc = some t
  last' : s'.run.lastTrap i.castSucc = some t'

/-- A guest that resumes finds the registers of its last trap, the same in both runs. -/
def FindsOwn (i : VmIdx P) (s s' : SystemState P) : Prop :=
  ∀ t t', Resumes i s s' t t' → s.run.hyp.cpu.system = t.system ∧
    s'.run.hyp.cpu.system = t'.system ∧ s.run.hyp.cpu.system = s'.run.hyp.cpu.system

/-- When a guest resumes, the other vCPUs have put back what it left at its last trap, and at its
first trap it left the same in both runs. -/
def PutBack (b : Boot P) (i : VmIdx P) (s s' : SystemState P) : Prop :=
  ∀ t t', Resumes i s s' t t' → since i.castSucc s.turns t.system = t.system ∧
    since i.castSucc s'.turns t'.system = t'.system ∧
    firstLeft b.reset.cpu.system i.castSucc s.turns =
      firstLeft b.reset.cpu.system i.castSucc s'.turns

variable {s s' : SystemState P} {ps : List (SystemState P × SystemState P)}

theorem TwoRuns.tracked (h : TwoRuns b k ps s s') : Tracked b s ∧ Tracked b s' := by
  induction h with
  | boot hmain => exact ⟨.boot hmain, .boot hmain⟩
  | step hprev htrap hwrites hstep hstep' ih => exact ⟨ih.1.step hstep, ih.2.step hstep'⟩

theorem TwoRuns.sameSchedule (h : TwoRuns b k ps s s') :
    Running b s.run ∧ Running b s'.run ∧ SameSchedule s.run s'.run := by
  induction h with
  | @boot h hmain =>
    have hrun : b.run [] = some ⟨h, fun _ => none⟩ := by
      rw [Boot.run, hmain]
      rfl
    have hi := b.run_running hrun
    exact ⟨hi, hi, .refl _, rfl⟩
  | @step s s' s1 s1' ps t t' hprev htrap hwrites hstep hstep' ih =>
    obtain ⟨hi, hi', hs⟩ := ih
    obtain ⟨-, -, hrun, -⟩ := SystemState.step_eq_some hstep
    obtain ⟨-, -, hrun', -⟩ := SystemState.step_eq_some hstep'
    rw [SystemState.trap, ← htrap] at hrun'
    exact ⟨hi.step hrun, hi'.step hrun', hs.step hi hi' hrun hrun'⟩

/-- The same traps come from the same vCPUs. -/
theorem TwoRuns.cur (h : TwoRuns b k ps s s') :
    s'.run.hyp.scheduler.curVcpu = s.run.hyp.scheduler.curVcpu := by
  obtain ⟨hi, hi', hs⟩ := h.sameSchedule
  rw [hi.cur.1, hi'.cur.1, hs.sched]

/-- What the guest left at its last turn is what its last trap has seen. -/
theorem Tracked.forall_resumes (hs : Tracked b s) (hs' : Tracked b s')
    (hc : s.run.hyp.scheduler.curVcpu = some i.castSucc)
    (hc' : s'.run.hyp.scheduler.curVcpu = some i.castSucc) (p : SystemRegs → SystemRegs → Prop) :
    (∀ t t', Resumes i s s' t t' → p t.system t'.system) ↔
      ∀ v v', lastLeft b.reset.cpu.system i.castSucc s.turns = some v →
        lastLeft b.reset.cpu.system i.castSucc s'.turns = some v' → p v v' := by
  rw [← hs.left, ← hs'.left]
  constructor
  · intro h v v' hv hv'
    obtain ⟨t, ht, rfl⟩ := Option.map_eq_some_iff.mp hv
    obtain ⟨t', ht', rfl⟩ := Option.map_eq_some_iff.mp hv'
    exact h t t' ⟨hc, hc', ht, ht'⟩
  · intro h t t' hr
    exact h _ _ (congrArg _ hr.last) (congrArg _ hr.last')

theorem Tracked.findsOwn_iff (hs : Tracked b s) (hs' : Tracked b s')
    (hc : s.run.hyp.scheduler.curVcpu = some i.castSucc)
    (hc' : s'.run.hyp.scheduler.curVcpu = some i.castSucc) :
    FindsOwn i s s' ↔ Found b.reset.cpu.system i.castSucc s.turns s'.turns := by
  rw [FindsOwn, hs.live, hs'.live]
  exact hs.forall_resumes hs' hc hc' fun v v' => _ = v ∧ _ = v' ∧ _

theorem Tracked.putBack_iff (hs : Tracked b s) (hs' : Tracked b s')
    (hc : s.run.hyp.scheduler.curVcpu = some i.castSucc)
    (hc' : s'.run.hyp.scheduler.curVcpu = some i.castSucc) :
    PutBack b i s s' ↔ Kept b.reset.cpu.system i.castSucc s.turns s'.turns :=
  hs.forall_resumes hs' hc hc' fun v v' =>
    since i.castSucc s.turns v = v ∧ since i.castSucc s'.turns v' = v' ∧ _

/-- As long as guest `i` finds its own, its turns in the two runs match. -/
theorem TwoRuns.matched (h : TwoRuns b k ps s s') (hk : k ≠ i.castSucc)
    (hf : ∀ p ∈ ps, FindsOwn i p.1 p.2) :
    Matched b.reset.cpu.system i.castSucc s.turns s'.turns := by
  induction h with
  | boot => exact .nil
  | step hprev htrap hwrites hstep hstep' ih =>
    obtain ⟨c, hc, -, hturns⟩ := SystemState.step_eq_some hstep
    obtain ⟨c', hc', -, hturns'⟩ := SystemState.step_eq_some hstep'
    obtain rfl : c = c' := Option.some.inj (hc.symm.trans (hprev.cur.symm.trans hc'))
    rw [hturns, hturns']
    refine (ih fun p hp => hf p (List.mem_cons_of_mem _ hp)).cons rfl ?_
    rintro rfl
    refine ⟨hwrites fun he => hk (Option.some.inj (he.symm.trans hc)), ?_⟩
    exact (hprev.tracked.1.findsOwn_iff hprev.tracked.2 hc hc').mp (hf _ List.mem_cons_self)

/-- At the end of two runs in which guest `i` has found its own before. -/
theorem TwoRuns.findsOwn_iff_putBack (h : TwoRuns b k ps s s') (hk : k ≠ i.castSucc)
    (hf : ∀ p ∈ ps, FindsOwn i p.1 p.2) : FindsOwn i s s' ↔ PutBack b i s s' := by
  by_cases hc : s.run.hyp.scheduler.curVcpu = some i.castSucc ∧
      s'.run.hyp.scheduler.curVcpu = some i.castSucc
  · rw [h.tracked.1.findsOwn_iff h.tracked.2 hc.1 hc.2, (h.matched hk hf).found_iff_kept,
      h.tracked.1.putBack_iff h.tracked.2 hc.1 hc.2]
  · have hnone (t t' : Trap) : ¬ Resumes i s s' t t' := fun hr => hc ⟨hr.cur, hr.cur'⟩
    exact iff_of_true (fun t t' hr => absurd hr (hnone t t')) fun t t' hr => absurd hr (hnone t t')

/-- A guest finds the system registers as it left them whenever it resumes, and the same in two
runs that differ in the writes of another guest only, exactly if each time the other vCPUs have put
back what it left, and it left the same at its first trap. -/
theorem system_registers_kept_iff (b : Boot P) (i j : VmIdx P) (hij : i ≠ j)
    (ps : List (SystemState P × SystemState P)) (s s' : SystemState P)
    (h : TwoRuns b j.castSucc ps s s') :
    (∀ p ∈ (s, s') :: ps, FindsOwn i p.1 p.2) ↔ ∀ p ∈ (s, s') :: ps, PutBack b i p.1 p.2 := by
  have hk : j.castSucc ≠ i.castSucc := fun he => hij (Fin.castSucc_injective _ he).symm
  induction h with
  | boot hmain =>
    rw [List.forall_mem_singleton, List.forall_mem_singleton]
    exact (TwoRuns.boot hmain).findsOwn_iff_putBack hk fun _ hp => absurd hp List.not_mem_nil
  | step hprev htrap hwrites hstep hstep' ih =>
    have hlast := (TwoRuns.step hprev htrap hwrites hstep hstep').findsOwn_iff_putBack hk
    refine List.forall_mem_cons.trans (Iff.trans ?_ List.forall_mem_cons.symm)
    exact (and_congr_left hlast).trans (and_congr_right fun _ => ih)

end TwoRuns

section Examples

/-- A vCPU writes its domain access register. -/
def setDacr (dacr : BitVec 32) (regs : SystemRegs) : SystemRegs := { regs with dacr := dacr }

def yieldAfter (writes : SystemRegs → SystemRegs) : SystemTrap :=
  ⟨hypercallTrap hypercallYield 0, writes⟩

/-- A run in which the first guest yields and the second yields back. -/
structure TwoYields where
  start : SystemState Platform.twoSlots
  second : SystemState Platform.twoSlots
  back : SystemState Platform.twoSlots

/-- The first guest yields with 5 in the register, and the second one after its own writes. -/
def yieldBack (writes : SystemRegs → SystemRegs) : Option TwoYields :=
  (twoGuests 0).main.toOption.bind fun h =>
    let start : SystemState Platform.twoSlots := ⟨⟨h, fun _ => none⟩, []⟩
    (start.step (yieldAfter (setDacr 5))).bind fun second =>
      (second.step (yieldAfter writes)).map fun back => ⟨start, second, back⟩

/-- The first guest resumes with what the second has made of its 5. -/
@[mk_iff] structure YieldedBack (writes : SystemRegs → SystemRegs) (y : TwoYields) : Prop where
  second : y.second.run.hyp.scheduler.curVcpu = some 1
  back : y.back.run.hyp.scheduler.curVcpu = some 0
  live : y.back.run.hyp.cpu.system = writes (setDacr 5 zeroSystemRegs)
  left : (y.back.run.lastTrap 0).map Trap.system = some (setDacr 5 zeroSystemRegs)
  written : since 0 y.back.turns (setDacr 5 zeroSystemRegs) = writes (setDacr 5 zeroSystemRegs)
  first : firstLeft zeroSystemRegs 0 y.back.turns = some (setDacr 5 zeroSystemRegs)

instance (writes : SystemRegs → SystemRegs) (y : TwoYields) : Decidable (YieldedBack writes y) :=
  decidable_of_iff _ (yieldedBack_iff writes y).symm

theorem exists_yieldBack (writes : SystemRegs → SystemRegs)
    (h : (yieldBack writes).any (fun y => decide (YieldedBack writes y)) = true) :
    ∃ y, yieldBack writes = some y ∧ YieldedBack writes y := by
  obtain ⟨y, hy, hdec⟩ := (Option.any_eq_true _ _).mp h
  exact ⟨y, hy, of_decide_eq_true hdec⟩

theorem exists_yieldBack_id : ∃ y, yieldBack id = some y ∧ YieldedBack id y :=
  exists_yieldBack id (by decide +kernel)

section
variable {writes writes' : SystemRegs → SystemRegs} {y y' : TwoYields}

/-- The two runs differ in what the second guest writes. -/
theorem twoRuns_yieldBack (h : yieldBack writes = some y) (h' : yieldBack writes' = some y')
    (hy : YieldedBack writes y) : TwoRuns (twoGuests 0) (1 : Fin 2).castSucc
      [(y.second, y.second), (y.start, y.start)] y.back y'.back ∧
      y.start.run.lastTrap 0 = none := by
  obtain ⟨m, hm, h⟩ := Option.bind_eq_some_iff.mp h
  obtain ⟨s1, hs1, h⟩ := Option.bind_eq_some_iff.mp h
  obtain ⟨s2, hs2, rfl⟩ := Option.map_eq_some_iff.mp h
  obtain ⟨m', hm', h'⟩ := Option.bind_eq_some_iff.mp h'
  obtain rfl : m = m' := Option.some.inj (hm.symm.trans hm')
  obtain ⟨s1', hs1', h'⟩ := Option.bind_eq_some_iff.mp h'
  obtain rfl : s1 = s1' := Option.some.inj (hs1.symm.trans hs1')
  obtain ⟨s2', hs2', rfl⟩ := Option.map_eq_some_iff.mp h'
  have hmain : (twoGuests 0).main = .ok m := by
    rcases hr : (twoGuests 0).main with e | m0 <;> rw [hr] at hm
    · cases hm
    · exact congrArg _ (Option.some.inj hm)
  have hboot := TwoRuns.boot (k := (1 : Fin 2).castSucc) hmain
  have hfirst := hboot.step rfl (fun _ => rfl) hs1 hs1
  have htrap : (yieldAfter writes).trap = (yieldAfter writes').trap := rfl
  have hwrites : s1.run.hyp.scheduler.curVcpu ≠ some (1 : Fin 2).castSucc →
      (yieldAfter writes).writes = (yieldAfter writes').writes := fun hne => absurd hy.second hne
  exact ⟨hfirst.step htrap hwrites hs2 hs2', rfl⟩

/-- The first guest resumes in both, with 5 in the register at its last trap. -/
theorem resumes_yieldBack (hy : YieldedBack writes y) (hy' : YieldedBack writes' y') :
    ∃ t t', Resumes (firstVm _) y.back y'.back t t' ∧ t.system = setDacr 5 zeroSystemRegs ∧
      t'.system = setDacr 5 zeroSystemRegs := by
  obtain ⟨t, ht, hleft⟩ := Option.map_eq_some_iff.mp hy.left
  obtain ⟨t', ht', hleft'⟩ := Option.map_eq_some_iff.mp hy'.left
  exact ⟨t, t', ⟨hy.back, hy'.back, ht, ht'⟩, hleft, hleft'⟩

/-- Nothing is lost if the second guest puts back the 5 that it has found. -/
theorem putBack_yieldBack (hy : YieldedBack writes y) (hy' : YieldedBack writes' y')
    (hnone : y.start.run.lastTrap 0 = none)
    (hback : writes (setDacr 5 zeroSystemRegs) = setDacr 5 zeroSystemRegs)
    (hback' : writes' (setDacr 5 zeroSystemRegs) = setDacr 5 zeroSystemRegs) :
    ∀ p ∈ [(y.back, y'.back), (y.second, y.second), (y.start, y.start)],
      PutBack (twoGuests 0) (firstVm _) p.1 p.2 := by
  obtain ⟨t, t', hr, ht, ht'⟩ := resumes_yieldBack hy hy'
  rw [List.forall_mem_cons, List.forall_mem_cons, List.forall_mem_singleton]
  refine ⟨fun t1 t1' hr1 => ?_, fun t1 t1' hr1 => ?_, fun t1 t1' hr1 => ?_⟩
  · obtain rfl := Option.some.inj (hr.last.symm.trans hr1.last)
    obtain rfl := Option.some.inj (hr.last'.symm.trans hr1.last')
    rw [ht, ht']
    exact ⟨hy.written.trans hback, hy'.written.trans hback', hy.first.trans hy'.first.symm⟩
  · exact absurd (hy.second.symm.trans hr1.cur) (by decide)
  · exact nomatch hnone.symm.trans hr1.last

end

/-- The second guest leaves the 5 alone in one run and writes it again in the other. -/
theorem system_registers_kept_after_yield : ∃ ps s s' t t',
    TwoRuns (twoGuests 0) (1 : Fin 2).castSucc ps s s' ∧ Resumes (firstVm _) s s' t t' ∧
      t.system.dacr = 5 ∧ ∀ p ∈ (s, s') :: ps, FindsOwn (firstVm _) p.1 p.2 := by
  obtain ⟨y, h, hy⟩ := exists_yieldBack_id
  obtain ⟨y', h', hy'⟩ := exists_yieldBack (setDacr 5) (by decide +kernel)
  obtain ⟨hruns, hnone⟩ := twoRuns_yieldBack h h' hy
  obtain ⟨t, t', hr, ht, -⟩ := resumes_yieldBack hy hy'
  refine ⟨_, _, _, t, t', hruns, hr, congrArg SystemRegs.dacr ht, ?_⟩
  have hne : (0 : Fin 2) ≠ 1 := by decide
  exact (system_registers_kept_iff (twoGuests 0) (firstVm _) (1 : Fin 2) hne _ _ _ hruns).mpr
    (putBack_yieldBack hy hy' hnone rfl rfl)

/-- The second guest leaves the 5 alone in one run and writes 7 in the other: the first guest
resumes with 5 in the one and with 7 in the other. -/
theorem system_registers_leak : ∃ ps s s' t t',
    TwoRuns (twoGuests 0) (1 : Fin 2).castSucc ps s s' ∧ Resumes (firstVm _) s s' t t' ∧
      t.system = setDacr 5 zeroSystemRegs ∧ t'.system = setDacr 5 zeroSystemRegs ∧
      s.run.hyp.cpu.system = setDacr 5 zeroSystemRegs ∧
      s'.run.hyp.cpu.system = setDacr 7 zeroSystemRegs ∧ ¬ FindsOwn (firstVm _) s s' := by
  obtain ⟨y, h, hy⟩ := exists_yieldBack_id
  obtain ⟨y', h', hy'⟩ := exists_yieldBack (setDacr 7) (by decide +kernel)
  obtain ⟨t, t', hr, ht, ht'⟩ := resumes_yieldBack hy hy'
  refine ⟨_, _, _, t, t', (twoRuns_yieldBack h h' hy).1, hr, ht, ht', hy.live, hy'.live,
    fun hfinds => ?_⟩
  have hsame := (hfinds t t' hr).2.2
  rw [hy.live, hy'.live] at hsame
  exact absurd hsame (by decide)

end Examples

end PiPervisor.Hv
