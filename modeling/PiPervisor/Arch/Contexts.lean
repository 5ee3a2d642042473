import PiPervisor.Arch.Vectors

/-! # Banked registers and the entry of a vCPU

The banked registers of the lower modes are loaded from a structure in memory.
The first vCPU is entered with both parts of its context loaded, by an exception
return that comes from no exception.
-/
namespace PiPervisor.Arch
open Library.Aarch32 Hv StateTransition

variable {p : Program Label} {s : State}

section Banked

def bankedAt (mem : Word → Word) (a : Word) : HypBankedRegs where
  spUsr := mem (a + hypBankedSpUsr)
  spSvc := mem (a + hypBankedSpSvc)
  lrSvc := mem (a + hypBankedLrSvc)
  spsrSvc := mem (a + hypBankedSpsrSvc)
  spIrq := mem (a + hypBankedSpIrq)
  lrIrq := mem (a + hypBankedLrIrq)
  spsrIrq := mem (a + hypBankedSpsrIrq)

/-- The banked registers of a core. -/
def bankedOf (s : State) : HypBankedRegs where
  spUsr := s.sp .usr
  spSvc := s.sp .svc
  lrSvc := s.lr .svc
  spsrSvc := s.spsr .svc
  spIrq := s.sp .irq
  lrIrq := s.lr .irq
  spsrIrq := s.spsr .irq

def withBanked (s : State) (k : HypBankedRegs) : State :=
  { s with
    sp := Function.update (Function.update (Function.update s.sp .usr k.spUsr) .svc k.spSvc) .irq
      k.spIrq
    lr := Function.update (Function.update s.lr .svc k.lrSvc) .irq k.lrIrq
    spsr := Function.update (Function.update s.spsr .svc k.spsrSvc) .irq k.spsrIrq }

@[simp] theorem bankedOf_withBanked (s : State) (k : HypBankedRegs) :
    bankedOf (withBanked s k) = k := by
  simp [bankedOf, withBanked]

/-- The structure word by word. -/
def bankedList (k : HypBankedRegs) : List (Word × Word) :=
  [(hypBankedSpUsr, k.spUsr), (hypBankedSpSvc, k.spSvc), (hypBankedLrSvc, k.lrSvc),
    (hypBankedSpsrSvc, k.spsrSvc), (hypBankedSpIrq, k.spIrq), (hypBankedLrIrq, k.lrIrq),
    (hypBankedSpsrIrq, k.spsrIrq)]

theorem bankedAt_eq {mem : Word → Word} {a : Word} {k : HypBankedRegs}
    (h : ∀ e ∈ bankedList k, mem (a + e.1) = e.2) : bankedAt mem a = k := by
  simp only [bankedList, List.forall_mem_cons] at h
  obtain ⟨h1, h2, h3, h4, h5, h6, h7, -⟩ := h
  rw [bankedAt, h1, h2, h3, h4, h5, h6, h7]

theorem storeAll_bankedList (mem : Word → Word) (a : Word) (k : HypBankedRegs) :
    ∀ e ∈ bankedList k, storeAll mem a (bankedList k) (a + e.1) = e.2 := by
  have hnodup : ((bankedList k).map Prod.fst).Nodup := by
    change [hypBankedSpUsr, hypBankedSpSvc, hypBankedLrSvc, hypBankedSpsrSvc, hypBankedSpIrq,
      hypBankedLrIrq, hypBankedSpsrIrq].Nodup
    decide
  exact fun e he => storeAll_of_mem mem a hnodup he

variable (ht : Text p) (hs : s.mode = modeHyp) (ha : Aligned (s.r 0)) (hlink : Aligned (s.lr .usr))
include ht hs ha hlink

/-- The banked registers are loaded from the structure; only r1 is lost. -/
theorem reaches_loaded (hpc : s.pc = p.address .hypLoadBankedRegs) : ∃ r,
    Reaches (stepIn p .hyp) s
      { withBanked s (bankedAt s.mem (s.r 0)) with r := r, pc := s.lr .usr } ∧
      ∀ n ≠ 1, r n = s.r n := by
  have hpriv : s.Privileged := by
    rw [State.Privileged, hs]
    decide
  have hcode := ht.loadBankedRegs
  rw [hypLoadBankedRegs, ← hpc, holds_append] at hcode
  have hr1 : Reg.r 0 ≠ .r 1 := by decide
  have hes : ∀ e ∈ bankedLayout, e.1.Accessible .hyp ∧ e.1 ≠ .cpsr ∧ Aligned (s.r 0 + e.2) ∧
      ∀ (s : State) (v : Word), (s.setSpecial e.1 v).get .hyp (.r 0) = s.get .hyp (.r 0) := by
    have hall : ∀ e ∈ bankedLayout, e.1.Accessible .hyp ∧ e.1 ≠ .cpsr ∧ Aligned e.2 := by decide
    intro e he
    obtain ⟨hx, hcpsr, hd⟩ := hall e he
    exact ⟨hx, hcpsr, ha.add hd, fun s v => congrFun (setSpecial_r s e.1 v) 0⟩
  obtain ⟨r, pc, hexec, hr⟩ := execAll_loadLines (p := p) hpriv hr1 rfl hes
  obtain ⟨hreach, hpc1, hmode⟩ := reaches_execAll (bank_hyp hs) hcode.1 rfl hexec
  have hret := hcode.2.1
  rw [← hpc1] at hret
  exact ⟨r, .tail hreach ((stepIn_eq (bank_hyp (hmode.trans hs)) hret).trans
    (exec_bxLr hlink)), hr⟩

end Banked

section Entry

/-- The registers that a context consists of, in either part of it. -/
def withContext (s : State) (f : HypExceptState) (k : HypBankedRegs) : State :=
  { withFrame (withBanked s k) f with cpsr := f.spsrHyp, pc := alignTarget f.spsrHyp f.elrHyp }

/-- Where the first part of the entry ends, with the banked registers loaded. -/
def afterBanked (p : Program Label) : Word :=
  endOf (p.address .hypEnterVcpuContext) (enterArguments ++ [.instr (.bl .hypLoadBankedRegs)])

theorem Text.afterBanked_aligned (ht : Text p) : Aligned (afterBanked p) := by
  have h := ((ht.aligned .hypEnterVcpuContext).add (d := 4) (by decide)).add (d := 4) (by decide)
  exact h.add (by decide)

theorem Text.afterBanked_holds (ht : Text p) :
    p.Holds (afterBanked p) (enterRegisters ++ [.instr .eret]) := by
  have h := ht.enterVcpuContext
  rw [hypEnterVcpuContext, List.append_assoc, holds_append] at h
  exact h.2

theorem execAll_enterRegisters {a : Word} (hs : s.mode = modeHyp) (ha : Aligned a)
    (hr4 : s.r 4 = a) : ∃ pc, execAll p .hyp s enterRegisters =
      some { withFrame s (frameAt s.mem a) with pc := pc } := by
  have hpriv : s.Privileged := by
    rw [State.Privileged, hs]
    decide
  have hes : ∀ e ∈ returnLayout, e.1.Accessible .hyp ∧ e.1 ≠ .cpsr ∧ Aligned (a + e.2) ∧
      ∀ (s : State) (v : Word), (s.setSpecial e.1 v).get .hyp (.r 4) = s.get .hyp (.r 4) := by
    have hall : ∀ e ∈ returnLayout, e.1.Accessible .hyp ∧ e.1 ≠ .cpsr ∧ Aligned e.2 := by decide
    intro e he
    obtain ⟨hx, hcpsr, hd⟩ := hall e he
    exact ⟨hx, hcpsr, ha.add hd, fun s v => congrFun (setSpecial_r s e.1 v) 4⟩
  have hr1 : Reg.r 4 ≠ .r 1 := by decide
  obtain ⟨r, pc, h, hr⟩ := execAll_loadLines (p := p) hpriv hr1 hr4 hes
  let f := frameAt s.mem a
  let s1 : State := { s with
    spsr := Function.update s.spsr .hyp f.spsrHyp, elrHyp := f.elrHyp, r := r, pc := pc }
  let s2 : State := { s1 with lr := Function.update s.lr .usr f.lr, pc := pc + 4 }
  have h1 : execAll p .hyp s (loadLines (.r 4) returnLayout) = some s1 := h
  have hr4' : r 4 = a := (hr 4 (by decide)).trans hr4
  have h2 : exec p .hyp s1 (.ldr .lr (.r 4) hypStateLr) = some s2 := by
    have hbase : s1.get .hyp (.r 4) = a := hr4'
    rw [exec_ldr (hbase.symm ▸ ha.add (by decide)), hbase]
    rfl
  have h3 : exec p .hyp s2 (.ldmia (.r 4) (regsFrom 0)) =
      some { withFrame s f with pc := pc + 4 + 4 } := by
    have hbase : s2.get .hyp (.r 4) = a := hr4'
    rw [exec_ldmia (hbase.symm ▸ ha), hbase, loadRegs_regsFrom_zero]
    rfl
  refine ⟨pc + 4 + 4, ?_⟩
  rw [enterRegisters, execAll_append, h1, Option.bind_some, execAll_instr h2, execAll_instr h3]
  rfl

variable (ht : Text p) (hs : s.mode = modeHyp) (hk : Aligned (s.r 1))
include ht hs hk

/-- The banked registers of the context are loaded, and the frame is still at hand. -/
theorem reaches_afterBanked (hpc : s.pc = p.address .hypEnterVcpuContext) : ∃ r,
    Reaches (stepIn p .hyp) s { withBanked s (bankedAt s.mem (s.r 1)) with
      r := r
      lr := Function.update (withBanked s (bankedAt s.mem (s.r 1))).lr .usr (afterBanked p)
      pc := afterBanked p } ∧ r 4 = s.r 0 := by
  have hcode := ht.enterVcpuContext
  simp only [hypEnterVcpuContext, List.append_assoc] at hcode
  rw [holds_append, ← hpc] at hcode
  have hargs : execAll p .hyp s enterArguments = some { s with
      r := Function.update (Function.update s.r 4 (s.r 0)) 0 (s.r 1), pc := s.pc + 4 + 4 } := rfl
  obtain ⟨h1, -, -⟩ := reaches_execAll (bank_hyp hs) hcode.1 rfl hargs
  let s2 : State := { s with
    r := Function.update (Function.update s.r 4 (s.r 0)) 0 (s.r 1)
    lr := Function.update s.lr .usr (s.pc + 4 + 4 + 4), pc := p.address .hypLoadBankedRegs }
  have h2 : stepIn p .hyp { s with
      r := Function.update (Function.update s.r 4 (s.r 0)) 0 (s.r 1), pc := s.pc + 4 + 4 } =
        some s2 := stepIn_eq (s := { s with
          r := Function.update (Function.update s.r 4 (s.r 0)) 0 (s.r 1), pc := s.pc + 4 + 4 })
            (bank_hyp hs) hcode.2.1
  have hlink : s2.lr .usr = afterBanked p := by
    change Function.update s.lr .usr (s.pc + 4 + 4 + 4) .usr = _
    rw [Function.update_self, hpc]
    rfl
  obtain ⟨r, h3, hr⟩ := reaches_loaded (s := s2) ht hs hk (hlink.symm ▸ ht.afterBanked_aligned) rfl
  have hlr : (withBanked s2 (bankedAt s2.mem (s2.r 0))).lr =
      Function.update (withBanked s (bankedAt s.mem (s.r 1))).lr .usr (afterBanked p) := by
    rw [← hlink]
    funext b
    cases b <;> rfl
  refine ⟨r, (h1.tail h2).trans ?_, hr 4 (by decide)⟩
  rw [hlink] at h3
  rw [← hlr]
  exact h3

/-- The vCPU is entered with its context; the Hyp stack is left as it is. -/
theorem reaches_entered (ha : Aligned (s.r 0)) (hpc : s.pc = p.address .hypEnterVcpuContext)
    (hmode : ReturnsTo .hyp ((frameAt s.mem (s.r 0)).spsrHyp.setWidth 5)) :
    Reaches (stepIn p .hyp) s
      (withContext s (frameAt s.mem (s.r 0)) (bankedAt s.mem (s.r 1))) := by
  obtain ⟨r, h1, hr4⟩ := reaches_afterBanked ht hs hk hpc
  let s1 : State := { withBanked s (bankedAt s.mem (s.r 1)) with
    r := r
    lr := Function.update (withBanked s (bankedAt s.mem (s.r 1))).lr .usr (afterBanked p)
    pc := afterBanked p }
  let f := frameAt s.mem (s.r 0)
  obtain ⟨hcode, heret, -⟩ := (holds_append _ _ _).mp ht.afterBanked_holds
  obtain ⟨pc, hexec⟩ := execAll_enterRegisters (p := p) (s := s1) hs ha hr4
  obtain ⟨h2, hpc2, hmode2⟩ := reaches_execAll (bank_hyp (s := s1) hs) hcode rfl hexec
  have heret' := heret
  rw [show endOf (afterBanked p) enterRegisters = pc from hpc2.symm] at heret'
  have hspsr : (withFrame s1 f).spsr .hyp = f.spsrHyp := by simp [withFrame]
  have h3 := (stepIn_eq (bank_hyp (hmode2.trans hs)) heret').trans (exec_eret hspsr hmode)
  -- the return address in lr has been overwritten
  have hlr : (withFrame s1 f).lr = (withFrame (withBanked s (bankedAt s.mem (s.r 1))) f).lr :=
    Function.update_idem ..
  have hcontext : withContext s f (bankedAt s.mem (s.r 1)) =
      { withContext s f (bankedAt s.mem (s.r 1)) with lr := (withFrame s1 f).lr } := by
    rw [hlr]
    rfl
  rw [hcontext]
  exact h1.trans (h2.tail h3)

end Entry

end PiPervisor.Arch
