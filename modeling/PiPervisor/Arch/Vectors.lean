import PiPervisor.Arch.Assembly
import Mathlib.Tactic.FinCases

/-! # The exception path around the handler

An entry of the vector table leads to the handler with a frame of the
registers and the syndrome on the Hyp stack. After the handler has returned, an
exception return restores the registers from the frame, or the core halts.
-/
namespace PiPervisor.Arch
open Library.Aarch32 Hv StateTransition

variable {p : Program Label} {s : State}

section Frames

/-- The trap frame in memory. -/
def frameAt (mem : Word → Word) (a : Word) : HypExceptState where
  r n := mem (a + BitVec.ofNat 32 (4 * n))
  lr := mem (a + hypStateLr)
  hsr := mem (a + hypStateHsr)
  elrHyp := mem (a + hypStateElrHyp)
  spsrHyp := mem (a + hypStateSpsrHyp)
  hdfar := mem (a + hypStateHdfar)
  hifar := mem (a + hypStateHifar)
  hpfar := mem (a + hypStateHpfar)
  exceptionType := mem (a + hypStateExceptionType)

/-- The frame of an exception of some type that has just been taken. -/
def trapFrame (s : State) (exceptionType : Word) : HypExceptState where
  r := s.r
  lr := s.lr .usr
  hsr := s.sys .hsr
  elrHyp := s.elrHyp
  spsrHyp := s.spsr .hyp
  hdfar := s.sys .hdfar
  hifar := s.sys .hifar
  hpfar := s.sys .hpfar
  exceptionType := exceptionType

def InFrame (a x : Word) : Prop := (x - a).toNat < 84

/-- The words that the exception path writes, with their offsets. -/
def frameWords (f : HypExceptState) : List (Word × Word) :=
  (hypStateR0, f.r 0) :: (hypStateExceptionType, f.exceptionType) ::
    wordsFrom 4 (((List.finRange 13).drop 1).map f.r) ++
    [(hypStateLr, f.lr), (hypStateHsr, f.hsr), (hypStateElrHyp, f.elrHyp),
      (hypStateSpsrHyp, f.spsrHyp), (hypStateHdfar, f.hdfar), (hypStateHifar, f.hifar),
      (hypStateHpfar, f.hpfar)]

theorem frameWords_offsets (f : HypExceptState) : (frameWords f).map Prod.fst =
    [0, 80, 4, 8, 12, 16, 20, 24, 28, 32, 36, 40, 44, 48, 52, 56, 60, 64, 68, 72, 76] := rfl

section Words
variable (mem : Word → Word) {a x : Word} (f : HypExceptState)

theorem storeAll_frameWords {d v : Word} (h : (d, v) ∈ frameWords f) :
    storeAll mem a (frameWords f) (a + d) = v :=
  storeAll_of_mem mem a (by rw [frameWords_offsets]; decide) h

theorem mem_frameWords_r (n : Fin 13) : (BitVec.ofNat 32 (4 * n), f.r n) ∈ frameWords f := by
  refine Fin.cases (.head _) (fun k => ?_) n
  have hk : k.val < (((List.finRange 13).drop 1).map f.r).length := k.isLt
  have hsucc : (((List.finRange 13).drop 1).map f.r)[k.val] = f.r k.succ := by
    rw [List.getElem_map, List.getElem_drop, List.getElem_finRange]
    exact congrArg f.r (Fin.ext (Nat.add_comm ..))
  have hword := mem_wordsFrom 4 hk
  rw [hsucc] at hword
  rw [Fin.val_succ, Nat.mul_succ, Nat.add_comm]
  exact List.mem_append_left _ (.tail _ (.tail _ hword))

theorem frameAt_storeAll : frameAt (storeAll mem a (frameWords f)) a = f := by
  have htail {d v : Word} (h : (d, v) ∈ [(hypStateLr, f.lr), (hypStateHsr, f.hsr),
      (hypStateElrHyp, f.elrHyp), (hypStateSpsrHyp, f.spsrHyp), (hypStateHdfar, f.hdfar),
      (hypStateHifar, f.hifar), (hypStateHpfar, f.hpfar)]) :
      storeAll mem a (frameWords f) (a + d) = v :=
    storeAll_frameWords mem f (List.mem_append_right _ h)
  have htype := storeAll_frameWords mem (a := a) f (List.mem_append_left _ (.tail _ (.head _)))
  have hr : (fun n : Fin 13 => storeAll mem a (frameWords f) (a + BitVec.ofNat 32 (4 * n))) = f.r :=
    funext fun n => storeAll_frameWords mem f (mem_frameWords_r f n)
  rw [frameAt, hr, htype, htail (v := f.lr) (by simp), htail (v := f.hsr) (by simp),
    htail (v := f.elrHyp) (by simp), htail (v := f.spsrHyp) (by simp),
    htail (v := f.hdfar) (by simp), htail (v := f.hifar) (by simp),
    htail (v := f.hpfar) (by simp)]

theorem storeAll_outside (hx : ¬ InFrame a x) : storeAll mem a (frameWords f) x = mem x := by
  refine storeAll_of_ne mem a fun e he hxe => hx ?_
  have hd : e.1 ∈ (frameWords f).map Prod.fst := List.mem_map_of_mem he
  have hlt : ∀ d ∈ (frameWords f).map Prod.fst, d.toNat < 84 := by
    rw [frameWords_offsets]
    simp
  have hsub : a + e.1 - a = e.1 := by
    rw [BitVec.add_comm, BitVec.add_sub_cancel]
  rw [InFrame, hxe, hsub]
  exact hlt _ hd

end Words

end Frames

section Entry

theorem execAll_noteType (ha : Aligned (s.sp .hyp)) (l : Label) (exceptionType : Word) :
    execAll p .hyp s (noteType l exceptionType) = some { s with
      r := Function.update s.r 0 exceptionType
      sp := Function.update s.sp .hyp (s.sp .hyp - 84)
      mem := Function.update s.mem (s.sp .hyp - 84) (s.r 0)
      pc := s.pc + 4 + 4 + 4 } := by
  let s1 := (s.set .hyp .sp (s.sp .hyp - 84)).next
  have hsub : exec p .hyp s (.subImm .sp .sp hypStateSize) = some s1 := rfl
  have hsp : s1.get .hyp .sp + hypStateR0 = s.sp .hyp - 84 := by
    change Function.update s.sp .hyp (s.sp .hyp - 84) .hyp + 0 = _
    rw [Function.update_self]
    exact BitVec.add_zero _
  have hstr : exec p .hyp s1 (.str (.r 0) .sp hypStateR0) = some { s1 with
      mem := Function.update s.mem (s.sp .hyp - 84) (s.r 0), pc := s1.pc + 4 } := by
    rw [exec_str (by rw [hsp]; exact ha.sub (by decide)), hsp]
    rfl
  rw [noteType, execAll, execAll_instr hsub, execAll_instr hstr]
  rfl

/-- The registers get into the frame, save r0 itself. -/
theorem execAll_saveRegisters (ha : Aligned (s.sp .hyp)) :
    execAll p .hyp s saveRegisters = some { s with
      r := Function.update s.r 0 (s.sp .hyp + 4)
      mem := storeAll s.mem (s.sp .hyp) ((hypStateExceptionType, s.r 0) ::
        wordsFrom 4 (((List.finRange 13).drop 1).map s.r) ++ [(hypStateLr, s.lr .usr)])
      pc := s.pc + 4 + 4 + 4 + 4 } := by
  let a := s.sp .hyp
  let m1 := Function.update s.mem (a + 80) (s.r 0)
  let m2 := storeAll m1 a (wordsFrom 4 (((List.finRange 13).drop 1).map s.r))
  let s1 : State := { s with mem := m1, pc := s.pc + 4 }
  let s2 : State := { s1 with r := Function.update s.r 0 (a + 4), pc := s1.pc + 4 }
  let s3 : State := { s2 with mem := m2, pc := s2.pc + 4 }
  have h1 : exec p .hyp s (.str (.r 0) .sp hypStateExceptionType) = some s1 :=
    exec_str (ha.add (by decide))
  have h2 : exec p .hyp s1 (.addImm (.r 0) .sp hypStateR1) = some s2 := rfl
  have h3 : exec p .hyp s2 (.stmia (.r 0) (regsFrom 1)) = some s3 := by
    have hr0 : s2.get .hyp (.r 0) = a + BitVec.ofNat 32 4 := by
      change Function.update s.r 0 (a + 4) 0 = _
      rw [Function.update_self]
      rfl
    have hregs : (regsFrom 1).map (s2.get .hyp) = ((List.finRange 13).drop 1).map s.r := rfl
    rw [exec, hr0, if_pos (ha.add (by decide)), hregs, storeWords_eq]
    rfl
  have h4 : exec p .hyp s3 (.str .lr .sp hypStateLr) = some { s3 with
      mem := Function.update m2 (a + 52) (s.lr .usr), pc := s3.pc + 4 } :=
    exec_str (ha.add (by decide))
  rw [saveRegisters, execAll, execAll_instr h1, execAll_instr h2, execAll_instr h3,
    execAll_instr h4]
  rfl

/-- The rest of the frame: what is read, where it is kept, and its value. -/
def syndromeWords (s : State) : List (Source × Word × Word) :=
  [(.coprocessor 4 5 2 0, hypStateHsr, s.sys .hsr), (.special .elrHyp, hypStateElrHyp, s.elrHyp),
    (.special (.spsr .hyp), hypStateSpsrHyp, s.spsr .hyp),
    (.coprocessor 4 6 0 0, hypStateHdfar, s.sys .hdfar),
    (.coprocessor 4 6 0 2, hypStateHifar, s.sys .hifar),
    (.coprocessor 4 6 0 4, hypStateHpfar, s.sys .hpfar)]

theorem syndromeWords_value (s : State) :
    ∀ e ∈ syndromeWords s, e.1.value .hyp s = some e.2.2 ∧ Aligned e.2.1 := by
  simp only [syndromeWords, List.forall_mem_cons]
  refine ⟨⟨rfl, ?_⟩, ⟨rfl, ?_⟩, ⟨rfl, ?_⟩, ⟨rfl, ?_⟩, ⟨rfl, ?_⟩, ⟨rfl, ?_⟩, by simp⟩ <;> decide

theorem execAll_fillFrame (ha : Aligned (s.sp .hyp)) (hs : s.mode = modeHyp) :
    ∃ r pc, execAll p .hyp s fillFrame = some { s with
      r := r
      mem := storeAll s.mem (s.sp .hyp) ((frameWords (trapFrame s (s.r 0))).tail)
      pc := pc } ∧ r 0 = s.sp .hyp := by
  let a := s.sp .hyp
  let s1 : State := { s with
    r := Function.update s.r 0 (a + 4)
    mem := storeAll s.mem a ((hypStateExceptionType, s.r 0) ::
        wordsFrom 4 (((List.finRange 13).drop 1).map s.r) ++ [(hypStateLr, s.lr .usr)])
    pc := s.pc + 4 + 4 + 4 + 4 }
  have hpriv : s1.Privileged := by
    rw [State.Privileged, show s1.mode = s.mode from rfl, hs]
    decide
  have hsp : Reg.sp ≠ .r 1 := by simp
  obtain ⟨r, pc, h, -⟩ := execAll_saveLines (p := p) hpriv hsp rfl
    fun e he => ⟨(syndromeWords_value s1 e he).1, ha.add (syndromeWords_value s1 e he).2⟩
  have hlines : (saveLines .sp syndromeLayout : List (Line Label)) =
      saveLines .sp ((syndromeWords s1).map fun e => (e.1, e.2.1)) := rfl
  refine ⟨Function.update r 0 a, pc + 4, ?_, Function.update_self ..⟩
  rw [fillFrame, execAll_append, execAll_append, execAll_saveRegisters ha, Option.bind_some,
    hlines, h, Option.bind_some, execAll_instr rfl]
  rfl

end Entry

section Table

/-- The entries of the vector table, in its order. -/
def vectorLabel (i : Fin 8) : Label :=
  [Label.hypUnknown, .hypUndef, .hypHvcFromHyp, .hypPrefetchAbort, .hypDataAbort, .hypLowerSync,
    .hypIrq, .hypFiq].get i

def vectorWord (i : Fin 8) : Label :=
  [Label.hypResetH, .hypUndefH, .hypHvcH, .hypPrefetchAbortH, .hypDataAbortH, .hypLowerSyncH,
    .hypIrqH, .hypFiqH].get i

theorem Text.vectorTable_entry (ht : Text p) (i : Fin 8) :
    p.fetch (p.address .hypVectorTable + BitVec.ofNat 32 (4 * i)) = some (.ldrPc (vectorWord i)) ∧
      p.literal (p.address (vectorWord i)) = some (vectorLabel i) := by
  have h := ht.vectorTable
  simp only [hypVectorTable, Program.Holds, true_and, BitVec.add_assoc] at h
  obtain ⟨h0, h1, h2, h3, h4, h5, h6, h7, e0, w0, e1, w1, e2, w2, e3, w3, e4, w4, e5, w5, e6, w6,
    e7, w7, -⟩ := h
  rw [← e0] at w0
  rw [← e1] at w1
  rw [← e2] at w2
  rw [← e3] at w3
  rw [← e4] at w4
  rw [← e5] at w5
  rw [← e6] at w6
  rw [← e7] at w7
  fin_cases i
  · exact ⟨(congrArg p.fetch (BitVec.add_zero _)).trans h0, w0⟩
  · exact ⟨h1, w1⟩
  · exact ⟨h2, w2⟩
  · exact ⟨h3, w3⟩
  · exact ⟨h4, w4⟩
  · exact ⟨h5, w5⟩
  · exact ⟨h6, w6⟩
  · exact ⟨h7, w7⟩

/-- Each entry leads to its part of the exception path, with its number as the type. -/
theorem Text.vectorEntry_holds (ht : Text p) (i : Fin 8) : p.Holds (p.address (vectorLabel i))
    (vectorEntry (vectorLabel i) (BitVec.ofNat 32 i)) := by
  have hpart (l : Label) (type : Word) (h : vectorEntry l type <:+: hypVectors) :
      p.Holds (p.address l) (vectorEntry l type) := ht.vectors.part h
  fin_cases i
  · exact hpart _ _ ⟨[], _, rfl⟩
  · exact hpart _ _ ⟨hypUnknown, _, rfl⟩
  · exact hpart _ _ ⟨hypUnknown ++ hypUndef ++ hypPrefetchAbort ++ hypDataAbort ++ hypLowerSync ++
      hypIrq ++ hypFiq, _, rfl⟩
  · exact hpart _ _ ⟨hypUnknown ++ hypUndef, _, rfl⟩
  · exact hpart _ _ ⟨hypUnknown ++ hypUndef ++ hypPrefetchAbort, _, rfl⟩
  · exact hpart _ _ ⟨hypUnknown ++ hypUndef ++ hypPrefetchAbort ++ hypDataAbort, _, rfl⟩
  · exact hpart _ _ ⟨hypUnknown ++ hypUndef ++ hypPrefetchAbort ++ hypDataAbort ++ hypLowerSync,
      _, rfl⟩
  · exact hpart _ _ ⟨hypUnknown ++ hypUndef ++ hypPrefetchAbort ++ hypDataAbort ++ hypLowerSync ++
      hypIrq, _, rfl⟩

theorem Text.allocFrame_holds (ht : Text p) :
    p.Holds (p.address .hypExceptEntryAllocFrame) hypExceptEntryAllocFrame :=
  ht.vectors.part ⟨hypUnknown ++ hypUndef ++ hypPrefetchAbort ++ hypDataAbort ++ hypLowerSync ++
    hypIrq ++ hypFiq ++ hypHvcFromHyp, hypHalt, rfl⟩

theorem Text.halt_holds (ht : Text p) : p.Holds (p.address .hypHalt) hypHalt :=
  ht.vectors.part ⟨hypUnknown ++ hypUndef ++ hypPrefetchAbort ++ hypDataAbort ++ hypLowerSync ++
    hypIrq ++ hypFiq ++ hypHvcFromHyp ++ hypExceptEntryAllocFrame, [], rfl⟩

end Table

section Handler

/-- Where the handler returns to. -/
def afterCall (p : Program Label) : Word :=
  endOf (p.address .hypExceptEntryAllocFrame) (fillFrame ++ callHandler)

/-- The handler is about to run, with its argument and the frame of the exception. -/
structure AtHandler (p : Program Label) (s s' : State) (exceptionType : Word) : Prop where
  pc : s'.pc = p.address .hypHandleException
  mode : s'.mode = modeHyp
  argument : s'.r 0 = s.sp .hyp - 84
  stack : s'.sp = Function.update s.sp .hyp (s.sp .hyp - 84)
  link : s'.lr = Function.update s.lr .usr (afterCall p)
  frame : frameAt s'.mem (s.sp .hyp - 84) = trapFrame s exceptionType
  outside : ∀ x, ¬ InFrame (s.sp .hyp - 84) x → s'.mem x = s.mem x
  spsr : s'.spsr = s.spsr
  sys : s'.sys = s.sys

/-- The frame is on the stack when the vector's part of the path has come to the handler. -/
theorem atHandler_frame (s : State) (exceptionType : Word) (mem : Word → Word)
    (hmem : mem = storeAll (Function.update s.mem (s.sp .hyp - 84) (s.r 0)) (s.sp .hyp - 84)
      ((frameWords (trapFrame s exceptionType)).tail)) :
    frameAt mem (s.sp .hyp - 84) = trapFrame s exceptionType ∧
      ∀ x, ¬ InFrame (s.sp .hyp - 84) x → mem x = s.mem x := by
  have hall : mem = storeAll s.mem (s.sp .hyp - 84) (frameWords (trapFrame s exceptionType)) := by
    have hzero : s.sp .hyp - 84 + hypStateR0 = s.sp .hyp - 84 := BitVec.add_zero _
    rw [hmem, frameWords, List.cons_append, storeAll, storeAll, List.foldl_cons, hzero]
    rfl
  rw [hall]
  exact ⟨frameAt_storeAll .., fun x hx => storeAll_outside _ _ hx⟩

theorem bank_hyp (hs : s.mode = modeHyp) : Bank.ofMode s.mode = some .hyp := by
  rw [hs]
  rfl

/-- By way of the table, with room for the frame and r0 in it. -/
theorem reaches_allocFrame (ht : Text p) (i : Fin 8) (hs : s.mode = modeHyp)
    (hpc : s.pc = p.address .hypVectorTable + BitVec.ofNat 32 (4 * i))
    (ha : Aligned (s.sp .hyp)) :
    Reaches (stepIn p .hyp) s { s with
      r := Function.update s.r 0 (BitVec.ofNat 32 i)
      sp := Function.update s.sp .hyp (s.sp .hyp - 84)
      mem := Function.update s.mem (s.sp .hyp - 84) (s.r 0)
      pc := p.address .hypExceptEntryAllocFrame } := by
  let s1 : State := { s with pc := p.address (vectorLabel i) }
  obtain ⟨hfetch, hword⟩ := ht.vectorTable_entry i
  rw [← hpc] at hfetch
  have htable : stepIn p .hyp s = some s1 := by
    rw [stepIn_eq (bank_hyp hs) hfetch, exec, hword]
    rfl
  obtain ⟨hnote, hbranch⟩ := (holds_append _ _ _).mp (ht.vectorEntry_holds i)
  have hexec := execAll_noteType (p := p) (s := s1) ha (vectorLabel i) (BitVec.ofNat 32 i)
  obtain ⟨hr, hpc2, hmode⟩ := reaches_execAll (bank_hyp (s := s1) hs) hnote rfl hexec
  have hbranch' := hbranch.1
  rw [← hpc2] at hbranch'
  exact .head htable (.tail hr (stepIn_eq (bank_hyp (hmode.trans hs)) hbranch'))

/-- The handler is called with the rest of the frame filled in. -/
theorem reaches_call (ht : Text p) (hs : s.mode = modeHyp)
    (hpc : s.pc = p.address .hypExceptEntryAllocFrame) (ha : Aligned (s.sp .hyp)) :
    ∃ r, Reaches (stepIn p .hyp) s { s with
      r := r
      lr := Function.update s.lr .usr (afterCall p)
      mem := storeAll s.mem (s.sp .hyp) ((frameWords (trapFrame s (s.r 0))).tail)
      pc := p.address .hypHandleException } ∧ r 0 = s.sp .hyp := by
  have hcode := ht.allocFrame_holds
  simp only [hypExceptEntryAllocFrame, List.append_assoc] at hcode
  rw [holds_append, holds_append, ← hpc] at hcode
  obtain ⟨r, pc, hexec, hr0⟩ := execAll_fillFrame (p := p) ha hs
  obtain ⟨hr, hpc1, hmode⟩ := reaches_execAll (bank_hyp hs) hcode.1 rfl hexec
  have hcall := hcode.2.1.1
  rw [← hpc1] at hcall
  have hlink : pc + 4 = afterCall p := by
    rw [show pc = endOf s.pc fillFrame from hpc1, hpc]
    rfl
  refine ⟨r, .tail hr ?_, hr0⟩
  rw [Option.mem_def, stepIn_eq (bank_hyp (hmode.trans hs)) hcall, ← hlink]
  rfl

/-- An entry of the vector table leads to the handler. -/
theorem reaches_handler (ht : Text p) (i : Fin 8) (hs : s.mode = modeHyp)
    (hpc : s.pc = p.address .hypVectorTable + BitVec.ofNat 32 (4 * i))
    (ha : Aligned (s.sp .hyp)) :
    ∃ s', Reaches (stepIn p .hyp) s s' ∧ AtHandler p s s' (BitVec.ofNat 32 i) := by
  let a := s.sp .hyp - 84
  let s1 : State := { s with
    r := Function.update s.r 0 (BitVec.ofNat 32 i), sp := Function.update s.sp .hyp a
    mem := Function.update s.mem a (s.r 0), pc := p.address .hypExceptEntryAllocFrame }
  have hsp : s1.sp .hyp = a := Function.update_self Bank.hyp a s.sp
  have hr0 : s1.r 0 = BitVec.ofNat 32 i := Function.update_self 0 (BitVec.ofNat 32 i.val) s.r
  obtain ⟨r, h2, hr⟩ := reaches_call (s := s1) ht hs rfl (hsp.symm ▸ ha.sub (by decide))
  rw [hsp] at h2 hr
  rw [hr0] at h2
  obtain ⟨hframe, houtside⟩ := atHandler_frame s (BitVec.ofNat 32 i) _ rfl
  refine ⟨_, (reaches_allocFrame ht i hs hpc ha).trans h2, ?_⟩
  have hwords : (frameWords (trapFrame s1 (BitVec.ofNat 32 i))).tail =
      (frameWords (trapFrame s (BitVec.ofNat 32 i))).tail := rfl
  rw [hwords]
  exact ⟨rfl, hs, hr, rfl, rfl, hframe, houtside, rfl, rfl⟩

end Handler

section Return

theorem loadRegs_regsFrom_zero (s : State) (b : Bank) (a : Word) : s.loadRegs b a (regsFrom 0) =
    { s with r := fun n => s.mem (a + BitVec.ofNat 32 (4 * n)) } := by
  rw [regsFrom, List.drop_zero, loadRegs_map_r s b a (List.nodup_finRange 13)]
  congr 1
  funext n
  rw [if_pos (List.mem_finRange n), List.idxOf_finRange]

/-- The registers with which the exception path leaves Hyp mode. -/
def withFrame (s : State) (f : HypExceptState) : State :=
  { s with
    r := f.r
    lr := Function.update s.lr .usr f.lr
    spsr := Function.update s.spsr .hyp f.spsrHyp
    elrHyp := f.elrHyp }

theorem execAll_restoreFrame (ha : Aligned (s.sp .hyp)) (hs : s.mode = modeHyp) :
    ∃ pc, execAll p .hyp s restoreFrame = some { withFrame s (frameAt s.mem (s.sp .hyp)) with
      sp := Function.update s.sp .hyp (s.sp .hyp + 84), pc := pc } := by
  have hpriv : s.Privileged := by
    rw [State.Privileged, hs]
    decide
  have hes : ∀ e ∈ returnLayout, e.1.Accessible .hyp ∧ e.1 ≠ .cpsr ∧ Aligned (s.sp .hyp + e.2) ∧
      ∀ (s : State) (v : Word), (s.setSpecial e.1 v).get .hyp .sp = s.get .hyp .sp := by
    simp only [returnLayout, List.forall_mem_cons]
    exact ⟨⟨rfl, by decide, ha.add (by decide), fun _ _ => rfl⟩,
      ⟨rfl, by decide, ha.add (by decide), fun _ _ => rfl⟩, by simp⟩
  have hsp : Reg.sp ≠ .r 1 := by simp
  obtain ⟨r, pc, h, -⟩ := execAll_loadLines (p := p) hpriv hsp rfl hes
  let a := s.sp .hyp
  let f := frameAt s.mem a
  let s1 : State := { s with
    spsr := Function.update s.spsr .hyp f.spsrHyp, elrHyp := f.elrHyp, r := r, pc := pc }
  let s2 : State := { s1 with r := f.r, pc := pc + 4 }
  let s3 : State := { s2 with lr := Function.update s.lr .usr f.lr, pc := pc + 4 + 4 }
  have h1 : execAll p .hyp s (loadLines .sp returnLayout) = some s1 := h
  have h2 : exec p .hyp s1 (.ldmia .sp (regsFrom 0)) = some s2 := by
    have hsp1 : Aligned (s1.get .hyp .sp) := ha
    rw [exec_ldmia hsp1, loadRegs_regsFrom_zero]
    rfl
  have h3 : exec p .hyp s2 (.ldr .lr .sp hypStateLr) = some s3 := by
    rw [exec_ldr (ha.add (by decide))]
    rfl
  refine ⟨pc + 4 + 4 + 4, ?_⟩
  rw [restoreFrame, execAll_append, h1, Option.bind_some, execAll_instr h2, execAll_instr h3]
  rfl

/-- The state after the exception return: the registers are those of the frame. -/
def resumed (s : State) (a : Word) (f : HypExceptState) : State :=
  { withFrame s f with
    sp := Function.update s.sp .hyp (a + 84), cpsr := f.spsrHyp
    pc := alignTarget f.spsrHyp f.elrHyp }

/-- The lines after the call. -/
theorem Text.afterCall_holds (ht : Text p) :
    p.Holds (afterCall p) (checkAction ++ restoreFrame ++ [.instr .eret]) := by
  have h := ht.allocFrame_holds
  simp only [hypExceptEntryAllocFrame, List.append_assoc] at h
  rw [← List.append_assoc fillFrame, holds_append] at h
  rw [List.append_assoc]
  exact h.2

/-- The core waits for events that change nothing. -/
def Halted (p : Program Label) (s : State) : Prop :=
  s.mode = modeHyp ∧ (s.pc = p.address .hypHalt ∨ s.pc = p.address .hypHalt + 4)

theorem Halted.next (ht : Text p) (h : Halted p s) : ∃ s', step p s = some s' ∧ Halted p s' := by
  obtain ⟨hs, hpc⟩ := h
  obtain ⟨-, hwfe, hbranch, -⟩ := ht.halt_holds
  rcases hpc with hpc | hpc
  · refine ⟨s.next, ?_, hs, .inr (congrArg (· + 4) hpc)⟩
    rw [step, bank_hyp hs, Option.bind_some, hpc, hwfe]
    rfl
  · refine ⟨{ s with pc := p.address .hypHalt }, ?_, hs, .inl rfl⟩
    rw [step, bank_hyp hs, Option.bind_some, hpc, hbranch]
    rfl

variable (ht : Text p) (hs : s.mode = modeHyp) (hpc : s.pc = afterCall p)
include ht hs hpc

/-- The action is compared, and decides where the core goes on. -/
theorem step_checkAction : stepIn p .hyp s = some (s.compare (s.r 0) hypActionReturn).next ∧
    stepIn p .hyp (s.compare (s.r 0) hypActionReturn).next =
      some (if s.r 0 ≠ hypActionReturn then
        { (s.compare (s.r 0) hypActionReturn).next with pc := p.address .hypHalt }
      else (s.compare (s.r 0) hypActionReturn).next.next) := by
  obtain ⟨hcmp, hbranch, -⟩ := ht.afterCall_holds
  rw [← hpc] at hcmp hbranch
  refine ⟨stepIn_eq (bank_hyp hs) hcmp, ?_⟩
  have hmode : (s.compare (s.r 0) hypActionReturn).next.mode = modeHyp :=
    (compare_mode ..).trans hs
  rw [stepIn_eq (bank_hyp hmode) hbranch, exec]
  have hne := compare_ne s (s.r 0) hypActionReturn
  rw [← if_congr hne rfl rfl]
  rfl

/-- If the handler says so, the registers are restored and the exception returns. -/
theorem reaches_resumed (ha : Aligned (s.sp .hyp)) (hr0 : s.r 0 = hypActionReturn)
    (hmode : ReturnsTo .hyp ((frameAt s.mem (s.sp .hyp)).spsrHyp.setWidth 5)) :
    Reaches (stepIn p .hyp) s (resumed s (s.sp .hyp) (frameAt s.mem (s.sp .hyp))) := by
  let f := frameAt s.mem (s.sp .hyp)
  let s1 := (s.compare (s.r 0) hypActionReturn).next.next
  have hs1 : s1.mode = modeHyp := (compare_mode ..).trans hs
  obtain ⟨hcmp, hbranch⟩ := step_checkAction ht hs hpc
  rw [if_neg (not_not.mpr hr0)] at hbranch
  have hcode := ht.afterCall_holds
  rw [List.append_assoc, holds_append, holds_append] at hcode
  have hpc1 : endOf (afterCall p) checkAction = s1.pc := congrArg (· + 4 + 4) hpc.symm
  rw [hpc1] at hcode
  obtain ⟨pc, hexec⟩ := execAll_restoreFrame (p := p) (s := s1) ha hs1
  obtain ⟨hr, hpc2, hmode2⟩ := reaches_execAll (bank_hyp hs1) hcode.2.1 rfl hexec
  have heret := hcode.2.2.1
  rw [← hpc2] at heret
  refine .head hcmp (.head hbranch (.tail hr ?_))
  have hspsr : (withFrame s1 f).spsr .hyp = f.spsrHyp := by simp [withFrame]
  exact (stepIn_eq (bank_hyp (hmode2.trans hs1)) heret).trans (exec_eret hspsr hmode)

/-- If the handler says anything else, the core runs on in Hyp mode for good. -/
theorem halts (hr0 : s.r 0 ≠ hypActionReturn) {s' : State} (h : Reaches (step p) s s') :
    s'.mode = modeHyp ∧ (step p s').isSome := by
  obtain ⟨hcmp, hbranch⟩ := step_checkAction ht hs hpc
  rw [if_pos hr0] at hbranch
  have hmode : (s.compare (s.r 0) hypActionReturn).next.mode = modeHyp := (compare_mode ..).trans hs
  have hhalted {t t' : State} (ht' : Halted p t) (h : Reaches (step p) t t') : Halted p t' := by
    induction h with
    | refl => exact ht'
    | tail _ hstep ih =>
      obtain ⟨t1, h1, ht1⟩ := ih.next ht
      obtain rfl := Option.mem_unique h1 hstep
      exact ht1
  rcases h.cases_head with rfl | ⟨s1, h1, h⟩
  · exact ⟨hs, Option.isSome_of_mem (step_of_stepIn hcmp)⟩
  obtain rfl := Option.mem_unique (step_of_stepIn hcmp) h1
  rcases h.cases_head with rfl | ⟨s2, h2, h⟩
  · exact ⟨hmode, Option.isSome_of_mem (step_of_stepIn hbranch)⟩
  obtain rfl := Option.mem_unique (step_of_stepIn hbranch) h2
  have hfirst : Halted p { (s.compare (s.r 0) hypActionReturn).next with
      pc := p.address .hypHalt } := ⟨hmode, .inl rfl⟩
  obtain ⟨s3, h3, -⟩ := (hhalted hfirst h).next ht
  exact ⟨(hhalted hfirst h).1, Option.isSome_of_mem h3⟩

end Return

end PiPervisor.Arch
