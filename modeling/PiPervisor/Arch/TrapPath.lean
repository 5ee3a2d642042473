import PiPervisor.Arch.Contexts
import PiPervisor.Arch.LowerModes
import PiPervisor.Library.Observed

/-! # The machine around the handler

A core runs vCPUs, takes exceptions from them and executes the exception path,
with a call of the C handler in between. The traps that the core has taken make
a run of the model, and whenever a vCPU executes its registers are those that
the model has for it.
-/
namespace PiPervisor.Arch
open Library.Aarch32 Library.Observed Hv StateTransition

variable {P : Platform} {p : Program Label} {b : Boot P} {S : Word}

section Machine

/-- The core with what the C code keeps in its variables and in the devices. -/
structure Machine (P : Platform) where
  core : State
  hyp : Hyp P

/-- What the handler works on: the frame it gets, and the registers of the core. -/
def Machine.seen (m : Machine P) : Hyp P :=
  { m.hyp with
    frame := frameAt m.core.mem (m.core.r 0)
    cpu := { m.hyp.cpu with banked := bankedOf m.core, vbar := m.core.sys .vbar } }

def actionCode : HypExceptAction → Word
  | .actionReturn => hypActionReturn
  | .actionHalt => 1

/-- A call of the handler that comes back, by the calling convention. -/
structure HandlerReturns (m m' : Machine P) : Prop where
  result : ∃ action, hypHandleException m.seen = .ok (action, m'.hyp) ∧
    m'.core.r 0 = actionCode action
  pc : m'.core.pc = m.core.lr .usr
  mode : m'.core.mode = modeHyp
  stack : m'.core.sp .hyp = m.core.sp .hyp
  frame : frameAt m'.core.mem (m.core.r 0) = m'.hyp.frame
  banked : bankedOf m'.core = m'.hyp.cpu.banked
  vbar : m'.core.sys .vbar = m'.hyp.cpu.vbar
  table : m'.core.sys .hvbar = m.core.sys .hvbar

/-- What a vCPU makes of the core before it takes an exception; Hyp mode is out of its reach. -/
structure RunsBelow (s g : State) : Prop where
  lower : LowerPsr g.cpsr
  stack : g.sp .hyp = s.sp .hyp
  table : g.sys .hvbar = s.sys .hvbar

/-- A trap is what an exception of some type has left in the core. -/
structure Shows (s : State) (exceptionType : Word) (t : Trap) : Prop where
  frame : t.frame = trapFrame s exceptionType
  banked : t.banked = bankedOf s
  vbar : t.vbar = s.sys .vbar

inductive Machine.Step (p : Program Label) : Option Trap → Machine P → Machine P → Prop
  | instruction {s s' : State} (h : Hyp P) (hstep : stepIn p .hyp s = some s') :
      Step p none ⟨s, h⟩ ⟨s', h⟩
  | handler {m m' : Machine P} (hmode : m.core.mode = modeHyp)
      (hpc : m.core.pc = p.address .hypHandleException) (h : HandlerReturns m m') : Step p none m m'
  | exception {m : Machine P} {g s : State} {t : Trap} {y : Syndrome} {i : Fin 8} {ret : Word}
      (hmode : m.core.mode ≠ modeHyp) (hg : RunsBelow m.core g) (hs : s = g.takeHyp y i ret)
      (ht : Shows s (BitVec.ofNat 32 i) t) (hcan : canTrap m.hyp t) :
      Step p (some t) m ⟨s, takeTrap m.hyp t⟩

end Machine

section Stations

/-- A vCPU executes with the registers of the model. -/
structure Executes (p : Program Label) (S : Word) (s : State) (h : Hyp P) : Prop where
  r : s.r = h.frame.r
  lr : s.lr .usr = h.frame.lr
  cpsr : s.cpsr = h.frame.spsrHyp
  pc : s.pc = alignTarget h.frame.spsrHyp h.frame.elrHyp
  banked : bankedOf s = h.cpu.banked
  vbar : s.sys .vbar = h.cpu.vbar
  stack : s.sp .hyp = S
  table : s.sys .hvbar = p.address .hypVectorTable
  lower : LowerPsr h.frame.spsrHyp

theorem Executes.mode {s : State} {h : Hyp P} (he : Executes p S s h) : s.mode ≠ modeHyp := by
  rw [State.mode, he.cpsr]
  exact he.lower.ne_hyp

/-- The handler is called for a trap. -/
structure Called (p : Program Label) (S : Word) (s : State) (t : Trap) : Prop where
  pc : s.pc = p.address .hypHandleException
  mode : s.mode = modeHyp
  argument : s.r 0 = S - 84
  stack : s.sp .hyp = S - 84
  link : s.lr .usr = afterCall p
  frame : frameAt s.mem (S - 84) = t.frame
  banked : bankedOf s = t.banked
  vbar : s.sys .vbar = t.vbar
  table : s.sys .hvbar = p.address .hypVectorTable

/-- What it sees is the state of the model after the trap. -/
theorem Called.seen {s : State} {t : Trap} (hs : Called p S s t) (h : Hyp P) :
    Machine.seen ⟨s, takeTrap h t⟩ = takeTrap h t := by
  rw [Machine.seen, hs.argument, hs.frame, hs.banked, hs.vbar]
  rfl

variable (ht : Text p) (hS : Aligned S)
include ht hS

/-- From the exception to the handler. -/
theorem reaches_called {s g : State} {t : Trap} {y : Syndrome} {i : Fin 8} {ret : Word}
    (hstack : g.sp .hyp = S) (htable : g.sys .hvbar = p.address .hypVectorTable)
    (hs : s = g.takeHyp y i ret) (hshows : Shows s (BitVec.ofNat 32 i) t) :
    ∃ s', Reaches (stepIn p .hyp) s s' ∧ Called p S s' t := by
  have hsp : s.sp .hyp = S := by rw [hs, ← hstack]; rfl
  have hpc : s.pc = p.address .hypVectorTable + BitVec.ofNat 32 (4 * i) := by
    rw [hs, ← ht.tableAligned, ← htable]
    rfl
  have hvbar : s.sys .hvbar = p.address .hypVectorTable := by rw [hs, ← htable]; rfl
  have hmode : s.mode = modeHyp := by
    rw [hs]
    exact takeHyp_mode g y i ret
  obtain ⟨s', hr, hat⟩ := reaches_handler ht i hmode hpc (hsp.symm ▸ hS)
  have hstack' : s'.sp .hyp = S - 84 := by
    rw [hat.stack, Function.update_self, hsp]
  refine ⟨s', hr, hat.pc, hat.mode, hsp ▸ hat.argument, hstack', ?_, ?_, ?_, ?_, ?_⟩
  · rw [hat.link, Function.update_self]
  · rw [hshows.frame, ← hat.frame, hsp]
  · rw [hshows.banked, bankedOf, bankedOf, hat.stack, hat.link, hat.spsr]
    rfl
  · rw [hshows.vbar, hat.sys]
  · rw [hat.sys, hvbar]

/-- From the handler back to a vCPU, if it says so. -/
theorem reaches_executes {m m' : Machine P} {t : Trap} (hm : Called p S m.core t)
    (h : HandlerReturns m m') (hr0 : m'.core.r 0 = hypActionReturn)
    (hlower : LowerPsr m'.hyp.frame.spsrHyp) :
    ∃ s, Reaches (stepIn p .hyp) m'.core s ∧ Executes p S s m'.hyp := by
  have hsp : m'.core.sp .hyp = S - 84 := h.stack.trans hm.stack
  have hframe : frameAt m'.core.mem (m'.core.sp .hyp) = m'.hyp.frame := by
    rw [hsp, ← hm.argument]
    exact h.frame
  have ha : Aligned (m'.core.sp .hyp) := hsp.symm ▸ hS.sub (by decide)
  have hreach := reaches_resumed ht h.mode (h.pc.trans hm.link) ha hr0
    (hframe.symm ▸ hlower.returnsTo)
  rw [hframe, hsp] at hreach
  refine ⟨_, hreach, rfl, ?_, rfl, rfl, ?_, h.vbar, ?_, ?_, hlower⟩
  · change Function.update m'.core.lr .usr m'.hyp.frame.lr .usr = _
    rw [Function.update_self]
  · rw [← h.banked]
    rfl
  · change Function.update m'.core.sp .hyp (S - 84 + 84) .hyp = S
    rw [Function.update_self, BitVec.sub_add_cancel]
  · exact h.table.trans hm.table

end Stations

section Phases

/-- The first vCPU is about to be entered, after the main program. -/
structure Entered (b : Boot P) (p : Program Label) (S : Word) (m : Machine P) : Prop where
  main : b.main = .ok m.hyp
  pc : m.core.pc = p.address .hypEnterVcpuContext
  mode : m.core.mode = modeHyp
  frame : frameAt m.core.mem (m.core.r 0) = m.hyp.frame
  frameAligned : Aligned (m.core.r 0)
  banked : bankedAt m.core.mem (m.core.r 1) = m.hyp.cpu.banked
  bankedAligned : Aligned (m.core.r 1)
  vbar : m.core.sys .vbar = m.hyp.cpu.vbar
  stack : m.core.sp .hyp = S
  table : m.core.sys .hvbar = p.address .hypVectorTable

/-- Where a machine is in its run, by the traps that it has taken. -/
inductive Phase (b : Boot P) (p : Program Label) (S : Word) (ts : List Trap) (m : Machine P) : Prop
  | returns {r : RunState P} {s : State} (hr : b.run ts = some r)
      (hreach : Reaches (stepIn p .hyp) m.core s) (hs : Executes p S s r.hyp)
      (hm : m.hyp = r.hyp)
  | calls {r : RunState P} {s : State} {ts0 : List Trap} {t : Trap} (hts : ts = ts0 ++ [t])
      (hr : b.run ts0 = some r) (hcan : canTrap r.hyp t)
      (hreach : Reaches (stepIn p .hyp) m.core s) (hs : Called p S s t)
      (hm : m.hyp = takeTrap r.hyp t)
  | halted {r : RunState P} {ts0 : List Trap} {t : Trap} (hts : ts = ts0 ++ [t])
      (hr : b.run ts0 = some r)
      (hhalt : hypHandleException (takeTrap r.hyp t) = .ok (.actionHalt, m.hyp))
      (hs : ∀ s, Reaches (step p) m.core s → s.mode = modeHyp ∧ (step p s).isSome)

variable {ts : List Trap} {m m' : Machine P} {s s' : State} {t : Trap}

/-- The path ends where a vCPU executes. -/
theorem Executes.stepIn_eq_none {h : Hyp P} (hs : Executes p S s h) : stepIn p .hyp s = none :=
  if_neg fun hb => hs.mode (Bank.ofMode_eq_hyp hb)

variable (ht : Text p)
include ht

/-- It also ends at the handler. -/
theorem Called.stepIn_eq_none (hs : Called p S s t) : stepIn p .hyp s = none := by
  rw [stepIn, step, hs.pc, ht.handler]
  simp

theorem Phase.instruction {h : Hyp P} (hphase : Phase b p S ts ⟨s, h⟩)
    (hstep : stepIn p .hyp s = some s') : Phase b p S ts ⟨s', h⟩ := by
  cases hphase with
  | returns hr hreach hs hm =>
    exact .returns hr (reaches_of_step hreach hstep hs.stepIn_eq_none) hs hm
  | calls hts hr hcan hreach hs hm =>
    exact .calls hts hr hcan (reaches_of_step hreach hstep (hs.stepIn_eq_none ht)) hs hm
  | halted hts hr hhalt hs =>
    exact .halted hts hr hhalt fun s1 h1 => hs s1 (h1.head (step_of_stepIn hstep))

/-- The entry of the first vCPU. -/
theorem Entered.phase (hm : Entered b p S m) (hb : Boot.Lower b) : Phase b p S [] m := by
  have hrun : b.run [] = some ⟨m.hyp, fun _ => none⟩ := by
    rw [Boot.run, hm.main]
    rfl
  have hlower := (lowerContexts_main hb hm.main).frame (Boot.run_running hrun)
  have hreach := reaches_entered ht hm.mode hm.bankedAligned hm.frameAligned hm.pc
    (hm.frame.symm ▸ LowerPsr.returnsTo hlower)
  rw [hm.frame, hm.banked] at hreach
  have hlink : (withContext m.core m.hyp.frame m.hyp.cpu.banked).lr .usr = m.hyp.frame.lr := by
    change Function.update (withBanked m.core m.hyp.cpu.banked).lr .usr m.hyp.frame.lr .usr = _
    rw [Function.update_self]
  have hbanked : bankedOf (withContext m.core m.hyp.frame m.hyp.cpu.banked) = m.hyp.cpu.banked :=
    bankedOf_withBanked m.core _
  exact .returns hrun hreach ⟨rfl, hlink, rfl, rfl, hbanked, hm.vbar, hm.stack, hm.table, hlower⟩
    rfl

omit ht in
theorem Phase.executes (hphase : Phase b p S ts m) (hmode : m.core.mode ≠ modeHyp) :
    ∃ r, b.run ts = some r ∧ m.hyp = r.hyp ∧ Executes p S m.core r.hyp := by
  cases hphase with
  | @returns r s hr hreach hs hm =>
    rcases hreach.cases_head with rfl | ⟨s1, h1, -⟩
    · exact ⟨r, hr, hm, hs⟩
    · exact absurd (mode_of_stepIn_hyp h1) hmode
  | calls hts hr hcan hreach hs hm =>
    rcases hreach.cases_head with rfl | ⟨s1, h1, -⟩
    · exact absurd hs.mode hmode
    · exact absurd (mode_of_stepIn_hyp h1) hmode
  | halted hts hr hhalt hs => exact absurd (hs m.core .refl).1 hmode

variable (hS : Aligned S)
include hS

/-- The handler is called for the last trap, and for no other. -/
theorem Phase.handler (hphase : Phase b p S ts m) (hmode : m.core.mode = modeHyp)
    (hpc : m.core.pc = p.address .hypHandleException) (h : HandlerReturns m m')
    (hb : Boot.Lower b) (hlower : ∀ t ∈ ts, LowerPsr t.frame.spsrHyp) : Phase b p S ts m' := by
  have hend : stepIn p .hyp m.core = none := by
    rw [stepIn, step, hpc, ht.handler]
    simp
  cases hphase with
  | returns hr hreach hs hm =>
    rcases hreach.cases_head with rfl | ⟨s1, h1, -⟩
    · exact absurd hmode hs.mode
    · rw [hend] at h1
      cases h1
  | @calls r s ts0 t hts hr hcan hreach hs hm =>
    obtain rfl : m.core = s := by
      rcases hreach.cases_head with rfl | ⟨s1, h1, -⟩
      · rfl
      · rw [hend] at h1
        cases h1
    obtain ⟨action, hresult, hr0⟩ := h.result
    have hseen : m.seen = takeTrap r.hyp t := by
      rw [← hs.seen r.hyp, ← hm]
    rw [hseen] at hresult
    cases action with
    | actionReturn =>
      obtain ⟨last, hlast⟩ := Running.step_eq (Boot.run_running hr) hcan hresult
      have hstep : b.run ts = some ⟨m'.hyp, last⟩ := by
        rw [hts, Boot.run_concat, hr]
        exact hlast
      have hframe := (run_lowerContexts hb hlower hstep).frame (Boot.run_running hstep)
      obtain ⟨s, hreach', hs'⟩ := reaches_executes ht hS hs h hr0 hframe
      exact .returns hstep hreach' hs' rfl
    | actionHalt =>
      refine .halted hts hr hresult fun s1 h1 => ?_
      have hne : m'.core.r 0 ≠ hypActionReturn := by
        rw [hr0]
        decide
      exact halts ht h.mode (h.pc.trans hs.link) hne h1
  | halted hts hr hhalt hs =>
    have hsome := (hs m.core .refl).2
    rw [step, hpc, ht.handler] at hsome
    simp at hsome

theorem Phase.exception {g : State} {y : Syndrome} {i : Fin 8} {ret : Word}
    (hphase : Phase b p S ts m) (hmode : m.core.mode ≠ modeHyp) (hg : RunsBelow m.core g)
    (hs : s = g.takeHyp y i ret) (hshows : Shows s (BitVec.ofNat 32 i) t)
    (hcan : canTrap m.hyp t) : Phase b p S (ts ++ [t]) ⟨s, takeTrap m.hyp t⟩ := by
  obtain ⟨r, hr, hm, hs0⟩ := hphase.executes hmode
  obtain ⟨s1, h1, hs1⟩ := reaches_called ht hS (hg.stack.trans hs0.stack)
    (hg.table.trans hs0.table) hs hshows
  exact .calls rfl hr (hm ▸ hcan) h1 hs1 (congrArg (takeTrap · t) hm)

end Phases

section Runs
variable {ts : List Trap} {m m' : Machine P} (ht : Text p) (hS : Aligned S) (hb : Boot.Lower b)
  (hm : Entered b p S m)
include ht hS hb hm

/-- Every state of the machine is in a phase. -/
theorem runs_phase (hruns : Runs (Machine.Step p) m ts m') :
    (∀ t ∈ ts, LowerPsr t.frame.spsrHyp) ∧ Phase b p S ts m' := by
  refine hruns.invariant (R := fun ts m =>
    (∀ t ∈ ts, LowerPsr t.frame.spsrHyp) ∧ Phase b p S ts m) ?_ ⟨by simp, hm.phase ht hb⟩
  rintro ts m1 m2 l ⟨hlower, hphase⟩ hstep
  cases hstep with
  | instruction h hstep =>
    rw [Option.toList_none, List.append_nil]
    exact ⟨hlower, hphase.instruction ht hstep⟩
  | handler hmode hpc h =>
    rw [Option.toList_none, List.append_nil]
    exact ⟨hlower, hphase.handler ht hS hmode hpc h hb hlower⟩
  | @exception _ g s t y i ret hmode hg hs hshows hcan =>
    refine ⟨?_, hphase.exception ht hS hmode hg hs hshows hcan⟩
    have hpsr : t.frame.spsrHyp = g.cpsr := by
      rw [hshows.frame, hs]
      change Function.update g.spsr .hyp g.cpsr .hyp = _
      rw [Function.update_self]
    rw [Option.toList_some, List.forall_mem_append, List.forall_mem_singleton, hpsr]
    exact ⟨hlower, hg.lower⟩

end Runs

section Existence

/-- A vCPU can leave any values behind, as long as its mode is a lower one. -/
theorem exists_exception {s : State} {t : Trap} {i : Fin 8} (hlower : LowerPsr t.frame.spsrHyp)
    (htype : t.frame.exceptionType = BitVec.ofNat 32 i) :
    ∃ g y ret, RunsBelow s g ∧ Shows (g.takeHyp y i ret) (BitVec.ofNat 32 i) t := by
  let g : State := { withBanked s t.banked with
    r := t.frame.r
    lr := Function.update (withBanked s t.banked).lr .usr t.frame.lr
    cpsr := t.frame.spsrHyp
    sys := Function.update s.sys .vbar t.vbar }
  let y : Syndrome := ⟨t.frame.hsr, t.frame.hdfar, t.frame.hifar, t.frame.hpfar⟩
  refine ⟨g, y, t.frame.elrHyp, ⟨hlower, rfl, rfl⟩, ?_, ?_, ?_⟩
  · have hlr : Function.update (withBanked s t.banked).lr .usr t.frame.lr .usr = t.frame.lr := by
      rw [Function.update_self]
    have hspsr : Function.update (withBanked s t.banked).spsr .hyp t.frame.spsrHyp .hyp =
        t.frame.spsrHyp := by rw [Function.update_self]
    change t.frame = ⟨t.frame.r, Function.update (withBanked s t.banked).lr .usr t.frame.lr .usr,
      t.frame.hsr, t.frame.elrHyp,
      Function.update (withBanked s t.banked).spsr .hyp t.frame.spsrHyp .hyp,
      t.frame.hdfar, t.frame.hifar, t.frame.hpfar, BitVec.ofNat 32 i⟩
    rw [hlr, hspsr, ← htype]
  · exact (bankedOf_withBanked s t.banked).symm
  · change t.vbar = Function.update s.sys .vbar t.vbar .vbar
    rw [Function.update_self]

/-- A call of the handler can come back with what the model says. -/
theorem exists_handlerReturns {m : Machine P} {h : Hyp P} {action : HypExceptAction}
    (hmode : m.core.mode = modeHyp) (hr : hypHandleException m.seen = .ok (action, h)) :
    ∃ m', HandlerReturns m m' ∧ m'.hyp = h ∧ m'.core.r 0 = actionCode action := by
  let s : State := { withBanked m.core h.cpu.banked with
    r := Function.update m.core.r 0 (actionCode action)
    mem := storeAll m.core.mem (m.core.r 0) (frameWords h.frame)
    sys := Function.update m.core.sys .vbar h.cpu.vbar
    pc := m.core.lr .usr }
  have hr0 : s.r 0 = actionCode action := by
    change Function.update m.core.r 0 (actionCode action) 0 = _
    rw [Function.update_self]
  refine ⟨⟨s, h⟩, ⟨⟨action, hr, hr0⟩, rfl, hmode, rfl, frameAt_storeAll .., ?_, ?_, rfl⟩, rfl, hr0⟩
  · exact bankedOf_withBanked m.core _
  · change Function.update m.core.sys .vbar h.cpu.vbar .vbar = _
    rw [Function.update_self]

theorem runs_of_reaches {s s' : State} (h : Hyp P) (hreach : Reaches (stepIn p .hyp) s s') :
    Runs (Machine.Step p) ⟨s, h⟩ [] ⟨s', h⟩ := by
  have hstep (t t' : State) (ht : stepIn p .hyp t = some t') :
      Machine.Step p none ⟨t, h⟩ ⟨t', h⟩ := .instruction h ht
  exact Runs.reaches hstep hreach

variable {ts : List Trap} {m : Machine P} (ht : Text p) (hS : Aligned S)
include ht hS

/-- One trap of a run of the model. -/
theorem exists_round {s : State} {h h' : Hyp P} {t : Trap} (hs : Executes p S s h)
    (hcan : canTrap h t) (hr : hypHandleException (takeTrap h t) = .ok (.actionReturn, h'))
    (hlower : LowerPsr t.frame.spsrHyp) (hlower' : LowerPsr h'.frame.spsrHyp) :
    ∃ s', Runs (Machine.Step p) ⟨s, h⟩ [t] ⟨s', h'⟩ ∧ Executes p S s' h' := by
  obtain ⟨i, htype⟩ : ∃ i : Fin 8, t.frame.exceptionType = BitVec.ofNat 32 i := by
    rcases hcan with hirq | ⟨hsync, -⟩
    · exact ⟨6, hirq⟩
    · exact ⟨5, hsync⟩
  obtain ⟨g, y, ret, hg, hshows⟩ := exists_exception (s := s) hlower htype
  obtain ⟨s1, h1, hs1⟩ := reaches_called ht hS (hg.stack.trans hs.stack)
    (hg.table.trans hs.table) rfl hshows
  obtain ⟨m2, h2, rfl, hr0⟩ := exists_handlerReturns (m := ⟨s1, takeTrap h t⟩) hs1.mode
    (by rw [hs1.seen, hr])
  obtain ⟨s3, h3, hs3⟩ := reaches_executes ht hS hs1 h2 hr0 hlower'
  have hexception : Machine.Step p (some t) ⟨s, h⟩ ⟨g.takeHyp y i ret, takeTrap h t⟩ :=
    .exception hs.mode hg rfl hshows hcan
  have htrap : Runs (Machine.Step p) ⟨s, h⟩ [t] ⟨g.takeHyp y i ret, takeTrap h t⟩ :=
    Runs.tail (.refl _) hexception
  have hcall := (htrap.trans (runs_of_reaches _ h1)).silent (.handler hs1.mode hs1.pc h2)
  exact ⟨s3, hcall.trans (runs_of_reaches _ h3), hs3⟩

variable (hb : Boot.Lower b) (hm : Entered b p S m)
include hb hm

theorem exists_executes {r : RunState P} (hlower : ∀ t ∈ ts, LowerPsr t.frame.spsrHyp)
    (hr : b.run ts = some r) :
    ∃ s, Runs (Machine.Step p) m ts ⟨s, r.hyp⟩ ∧ Executes p S s r.hyp := by
  induction ts using List.reverseRecOn generalizing r with
  | nil =>
    cases hm.phase ht hb with
    | @returns r' s hr' hreach hs hm' =>
      obtain rfl := Option.some.inj (hr.symm.trans hr')
      refine ⟨s, ?_, hs⟩
      rw [← hm']
      exact runs_of_reaches m.hyp hreach
    | calls hts => simp at hts
    | halted hts => simp at hts
  | append_singleton ts t ih =>
    have hframe := (run_lowerContexts hb hlower hr).frame (Boot.run_running hr)
    rw [Boot.run_concat] at hr
    obtain ⟨r0, h0, hstep⟩ := Option.bind_eq_some_iff.mp hr
    obtain ⟨s, hruns, hs⟩ := ih (fun t' ht' => hlower t' (List.mem_append_left _ ht')) h0
    obtain ⟨c, h1, -, hcan, h1r, rfl⟩ := RunState.step_eq_some hstep
    obtain ⟨s', hround, hs'⟩ := exists_round ht hS hs hcan h1r (hlower t (by simp)) hframe
    exact ⟨s', hruns.trans hround, hs'⟩

end Existence

section Example

/-- The entry of the first vCPU, with its context in memory at two fixed addresses. -/
def entry (p : Program Label) (h : Hyp P) : Machine P where
  core :=
    { r := fun n => if n = 0 then 0x100000 else 0x100100
      sp := fun _ => hypStackTop
      lr := fun _ => 0
      spsr := fun _ => 0
      elrHyp := 0
      pc := p.address .hypEnterVcpuContext
      cpsr := 0x1da
      sys := Function.update (fun _ => p.address .hypVectorTable) .vbar h.cpu.vbar
      mem := storeAll (storeAll (fun _ => 0) 0x100100 (bankedList h.cpu.banked)) 0x100000
        (frameWords h.frame) }
  hyp := h

theorem not_inFrame (k : HypBankedRegs) :
    ∀ e ∈ bankedList k, ¬ InFrame 0x100000 (0x100100 + e.1) := by
  simp [bankedList, InFrame, hypBankedSpUsr, hypBankedSpSvc, hypBankedLrSvc, hypBankedSpsrSvc,
    hypBankedSpIrq, hypBankedLrIrq, hypBankedSpsrIrq]

theorem entered_entry {h : Hyp P} (hr : b.main = .ok h) :
    Entered b p hypStackTop (entry p h) where
  main := hr
  pc := rfl
  mode := show (0x1da#32).setWidth 5 = modeHyp by decide
  frame := frameAt_storeAll ..
  frameAligned := show Aligned 0x100000 by decide
  banked := by
    refine bankedAt_eq (a := 0x100100) fun e he => ?_
    exact (storeAll_outside _ _ (not_inFrame _ e he)).trans (storeAll_bankedList _ _ _ e he)
  bankedAligned := show Aligned 0x100100 by decide
  vbar := by
    change Function.update (fun _ => p.address .hypVectorTable) SysReg.vbar h.cpu.vbar .vbar = h.cpu.vbar
    rw [Function.update_self]
  stack := rfl
  table := by
    change Function.update (fun _ => p.address .hypVectorTable) SysReg.vbar h.cpu.vbar .hvbar =
      _
    rw [Function.update_of_ne (by decide)]

/-- A trap from Supervisor mode. -/
def fromSvc (t : Trap) : Trap :=
  { t with frame := { t.frame with spsrHyp := hypLowerSvcCpsr } }

theorem yield_runs : ∃ r, (twoGuests 0).run [fromSvc (hypercallTrap hypercallYield 0),
    fromSvc (hypercallTrap hypercallTimerDelayTicks 100)] = some r :=
  Option.isSome_iff_exists.mp (by decide +kernel)

theorem twoGuests_lower : Boot.Lower (twoGuests 0) := by
  intro i g hg
  obtain rfl := Option.some.inj hg
  change LowerPsr hypLowerSvcCpsr
  decide

theorem fromSvc_lower : ∀ t ∈ [fromSvc (hypercallTrap hypercallYield 0),
    fromSvc (hypercallTrap hypercallTimerDelayTicks 100)], LowerPsr t.frame.spsrHyp := by
  simp only [List.forall_mem_cons]
  exact ⟨show LowerPsr hypLowerSvcCpsr by decide, show LowerPsr hypLowerSvcCpsr by decide, by simp⟩

end Example

section Refinement
variable {ts : List Trap} {m m' : Machine P}

/-- Whenever a vCPU executes, the traps so far are a run of the model, and the registers are
those that the model has for the vCPU. The stack of Hyp mode is where it was. -/
theorem vcpu_executes_model (ht : Text p) (hS : Aligned S) (hb : Boot.Lower b)
    (hm : Entered b p S m) (hruns : Runs (Machine.Step p) m ts m')
    (hmode : m'.core.mode ≠ modeHyp) :
    ∃ r, b.run ts = some r ∧ m'.hyp = r.hyp ∧ Executes p S m'.core r.hyp :=
  (runs_phase ht hS hb hm hruns).2.executes hmode

/-- The first guest yields to the second, which waits for its timer. -/
theorem vcpu_executes_model_twice : ∃ m m' : Machine Platform.twoSlots,
    Entered (twoGuests 0) image hypStackTop m ∧
    m'.core.mode ≠ modeHyp ∧ ∃ r, (twoGuests 0).run [fromSvc (hypercallTrap hypercallYield 0),
      fromSvc (hypercallTrap hypercallTimerDelayTicks 100)] = some r ∧ m'.hyp = r.hyp ∧
      Executes image hypStackTop m'.core r.hyp := by
  obtain ⟨h, hr, -⟩ := (twoGuests 0).main_spec
  obtain ⟨r, hrun⟩ := yield_runs
  obtain ⟨s, hruns, hs⟩ := exists_executes text_image (by decide) twoGuests_lower
    (entered_entry hr) fromSvc_lower hrun
  exact ⟨_, _, entered_entry hr, hs.mode, vcpu_executes_model text_image (by decide)
    twoGuests_lower (entered_entry hr) hruns hs.mode⟩

/-- From every state the core gets, without a fault, to a vCPU that executes as in the model or
to the call of the handler for the last trap; or the handler has decided to halt for that trap,
and the core stays in Hyp mode for good. -/
theorem core_leads (ht : Text p) (hS : Aligned S) (hb : Boot.Lower b)
    (hm : Entered b p S m) (hruns : Runs (Machine.Step p) m ts m') :
    (∃ r s, b.run ts = some r ∧ m'.hyp = r.hyp ∧ Reaches (step p) m'.core s ∧
      Executes p S s r.hyp) ∨
    ∃ ts0 t r, ts = ts0 ++ [t] ∧ b.run ts0 = some r ∧
      ((∃ s, Reaches (step p) m'.core s ∧ Called p S s t ∧
        Machine.seen ⟨s, m'.hyp⟩ = takeTrap r.hyp t) ∨
      hypHandleException (takeTrap r.hyp t) = .ok (.actionHalt, m'.hyp) ∧
        ∀ s, Reaches (step p) m'.core s → s.mode = modeHyp ∧ (step p s).isSome) := by
  obtain ⟨-, hphase⟩ := runs_phase ht hS hb hm hruns
  cases hphase with
  | @returns r s hr hreach hs hm' => exact .inl ⟨r, s, hr, hm', reaches_step hreach, hs⟩
  | @calls r s ts0 t hts hr hcan hreach hs hm' =>
    refine .inr ⟨ts0, t, r, hts, hr, .inl ⟨s, reaches_step hreach, hs, ?_⟩⟩
    rw [hm', hs.seen]
  | @halted r ts0 t hts hr hhalt hs => exact .inr ⟨ts0, t, r, hts, hr, .inr ⟨hhalt, hs⟩⟩

theorem core_leads_from_entry : ∃ m : Machine Platform.twoSlots,
    Entered (twoGuests 0) image hypStackTop m ∧
      ∃ r s, (twoGuests 0).run [] = some r ∧ m.hyp = r.hyp ∧ Reaches (step image) m.core s ∧
        Executes image hypStackTop s r.hyp := by
  obtain ⟨h, hr, -⟩ := (twoGuests 0).main_spec
  refine ⟨_, entered_entry hr, ?_⟩
  rcases core_leads text_image (by decide) twoGuests_lower (entered_entry hr) (.refl _) with
    hleads | ⟨ts, t, r, hts, -⟩
  · exact hleads
  · simp at hts

/-- The machine gets through a list of traps to a vCPU exactly if the traps come from lower modes
and are a run of the model, and the C code has the state of that run. -/
theorem machine_runs_iff (ht : Text p) (hS : Aligned S) (hb : Boot.Lower b)
    (hm : Entered b p S m) (h : Hyp P) :
    (∃ s, Runs (Machine.Step p) m ts ⟨s, h⟩ ∧ s.mode ≠ modeHyp) ↔
      (∀ t ∈ ts, LowerPsr t.frame.spsrHyp) ∧ ∃ r, b.run ts = some r ∧ r.hyp = h := by
  constructor
  · rintro ⟨s, hruns, hmode⟩
    obtain ⟨hlower, hphase⟩ := runs_phase ht hS hb hm hruns
    obtain ⟨r, hr, hh, -⟩ := hphase.executes hmode
    exact ⟨hlower, r, hr, hh.symm⟩
  · rintro ⟨hlower, r, hr, rfl⟩
    obtain ⟨s, hruns, hs⟩ := exists_executes ht hS hb hm hlower hr
    exact ⟨s, hruns, hs.mode⟩

theorem machine_runs_iff_twice : ∃ m s, ∃ h : Hyp Platform.twoSlots,
    Entered (twoGuests 0) image hypStackTop m ∧
    Runs (Machine.Step image) m [fromSvc (hypercallTrap hypercallYield 0),
      fromSvc (hypercallTrap hypercallTimerDelayTicks 100)] ⟨s, h⟩ ∧ s.mode ≠ modeHyp := by
  obtain ⟨h, hr, -⟩ := (twoGuests 0).main_spec
  obtain ⟨r, hrun⟩ := yield_runs
  obtain ⟨s, hs⟩ := (machine_runs_iff text_image (by decide) twoGuests_lower (entered_entry hr)
    r.hyp).mpr ⟨fromSvc_lower, r, hrun, rfl⟩
  exact ⟨_, s, r.hyp, entered_entry hr, hs⟩

end Refinement

end PiPervisor.Arch
