import Mathlib.Computability.StateTransition
import Mathlib.Data.Fintype.Basic
import Mathlib.Data.List.FinRange

/-! # A part of the A32 instruction set

The registers of a core, the banked ones among them, a memory of words and the
instructions that exception code consists of. The text of a
program is a list of lines with symbolic labels; `Program.Holds` says that the
lines lie in memory from some address on. FIQ mode, with its own r8 to r12, and
Monitor mode run no code here.
-/
namespace PiPervisor.Library.Aarch32
open StateTransition

abbrev Word := BitVec 32

section Registers

inductive Bank where
  | usr | irq | svc | abt | hyp | und
  deriving DecidableEq

def modeFiq : BitVec 5 := 0x11
def modeHyp : BitVec 5 := 0x1a

/-- The bank of a mode; System mode has the one of User mode. -/
def Bank.ofMode (mode : BitVec 5) : Option Bank :=
  if mode = 0x10 ∨ mode = 0x1f then some .usr
  else if mode = 0x12 then some .irq
  else if mode = 0x13 then some .svc
  else if mode = 0x17 then some .abt
  else if mode = modeHyp then some .hyp
  else if mode = 0x1b then some .und
  else none

theorem Bank.ofMode_eq_hyp {mode : BitVec 5} (h : Bank.ofMode mode = some .hyp) :
    mode = modeHyp := by
  revert mode
  decide

/-- Hyp mode has a stack pointer of its own, but the link register of User mode. -/
def Bank.link : Bank → Bank
  | .hyp => .usr
  | b => b

inductive Reg where
  | r (n : Fin 13)
  | sp
  | lr
  deriving DecidableEq

inductive SysReg where
  | vbar | hvbar | hsr | hdfar | hifar | hpfar
  deriving DecidableEq

/-- A register of coprocessor 15, by opc1, CRn, CRm and opc2. -/
def SysReg.decode : ℕ → ℕ → ℕ → ℕ → Option SysReg
  | 0, 12, 0, 0 => some .vbar
  | 4, 12, 0, 0 => some .hvbar
  | 4, 5, 2, 0 => some .hsr
  | 4, 6, 0, 0 => some .hdfar
  | 4, 6, 0, 2 => some .hifar
  | 4, 6, 0, 4 => some .hpfar
  | _, _, _, _ => none

/-- What MRS and MSR reach by name. -/
inductive Special where
  | cpsr
  | elrHyp
  | sp (b : Bank)
  | lr (b : Bank)
  | spsr (b : Bank)
  deriving DecidableEq

structure State where
  r : Fin 13 → Word
  sp : Bank → Word
  lr : Bank → Word
  spsr : Bank → Word
  elrHyp : Word
  pc : Word
  cpsr : Word
  sys : SysReg → Word
  mem : Word → Word

namespace State
variable (s : State) (b : Bank)

def mode : BitVec 5 := s.cpsr.setWidth 5

def get : Reg → Word
  | .r n => s.r n
  | .sp => s.sp b
  | .lr => s.lr b.link

def set (x : Reg) (v : Word) : State :=
  match x with
  | .r n => { s with r := Function.update s.r n v }
  | .sp => { s with sp := Function.update s.sp b v }
  | .lr => { s with lr := Function.update s.lr b.link v }

def getSpecial : Special → Word
  | .cpsr => s.cpsr
  | .elrHyp => s.elrHyp
  | .sp b => s.sp b
  | .lr b => s.lr b
  | .spsr b => s.spsr b

def setSpecial (x : Special) (v : Word) : State :=
  match x with
  | .cpsr => { s with cpsr := v }
  | .elrHyp => { s with elrHyp := v }
  | .sp b => { s with sp := Function.update s.sp b v }
  | .lr b => { s with lr := Function.update s.lr b v }
  | .spsr b => { s with spsr := Function.update s.spsr b v }

/-- The next instruction. -/
def next : State := { s with pc := s.pc + 4 }

end State

end Registers

section Memory

def Aligned (a : Word) : Prop := a.toNat % 4 = 0

instance (a : Word) : Decidable (Aligned a) := by
  unfold Aligned
  infer_instance

/-- Words from `a` on, in the order of the list. -/
def storeWords (mem : Word → Word) (a : Word) : List Word → Word → Word
  | [] => mem
  | v :: vs => storeWords (Function.update mem a v) (a + 4) vs

def State.load (s : State) (a : Word) : Option Word := if Aligned a then some (s.mem a) else none

def State.store (s : State) (a v : Word) : Option State :=
  if Aligned a then some { s with mem := Function.update s.mem a v } else none

/-- Registers from the words from `a` on. -/
def State.loadRegs (s : State) (b : Bank) (a : Word) : List Reg → State
  | [] => s
  | x :: xs => (s.set b x (s.mem a)).loadRegs b (a + 4) xs

end Memory

section Flags

/-- The condition flags N, Z, C and V on top of the rest of a status word. -/
def withFlags (psr : Word) (n z c v : Bool) : Word :=
  BitVec.ofBool n ++ (BitVec.ofBool z ++ (BitVec.ofBool c ++ (BitVec.ofBool v ++ psr.setWidth 28)))

inductive Cond where
  | al | ne
  deriving DecidableEq

def Cond.Holds (psr : Word) : Cond → Prop
  | .al => True
  | .ne => psr.getLsbD 30 = false

instance (psr : Word) (c : Cond) : Decidable (c.Holds psr) := by
  cases c <;> unfold Cond.Holds <;> infer_instance

/-- The flags of the subtraction `x - y`. -/
def State.compare (s : State) (x y : Word) : State :=
  let overflow := x.msb != y.msb && (x - y).msb != x.msb
  { s with cpsr := withFlags s.cpsr (x - y).msb (decide (x = y)) (decide (y ≤ x)) overflow }

end Flags

section Exceptions

/-- The modes that an exception return may go back to; only Hyp mode returns to Hyp mode. -/
def ReturnsTo (b : Bank) (mode : BitVec 5) : Prop :=
  mode = modeFiq ∨ (Bank.ofMode mode).isSome ∧ (mode = modeHyp → b = .hyp)

instance (b : Bank) (mode : BitVec 5) : Decidable (ReturnsTo b mode) := by
  unfold ReturnsTo
  infer_instance

/-- A target is aligned for the instruction set that the status word selects. -/
def alignTarget (psr target : Word) : Word :=
  if psr.getLsbD 5 then target &&& ~~~1 else target &&& ~~~3

/-- The status word is restored, and with it the mode and the instruction set. -/
def State.exceptionReturn (s : State) (b : Bank) (target psr : Word) : Option State :=
  if ReturnsTo b (psr.setWidth 5) then some { s with cpsr := psr, pc := alignTarget psr target }
  else none

/-- The status word in Hyp mode: flags kept, asynchronous exceptions masked, A32 code. -/
def hypEntryCpsr (cpsr : Word) : Word := cpsr &&& 0xf80f0000 ||| 0x1da

/-- The syndrome registers that the hardware fills in. -/
structure Syndrome where
  hsr : Word
  hdfar : Word
  hifar : Word
  hpfar : Word

def Syndrome.write (y : Syndrome) (sys : SysReg → Word) : SysReg → Word
  | .hsr => y.hsr
  | .hdfar => y.hdfar
  | .hifar => y.hifar
  | .hpfar => y.hpfar
  | x => sys x

/-- An exception is taken to an entry of the Hyp vector table. -/
def State.takeHyp (s : State) (y : Syndrome) (vector : Fin 8) (returnAddress : Word) : State :=
  { s with
    spsr := Function.update s.spsr .hyp s.cpsr
    elrHyp := returnAddress
    cpsr := hypEntryCpsr s.cpsr
    sys := y.write s.sys
    pc := (s.sys .hvbar &&& ~~~31) + BitVec.ofNat 32 (4 * vector) }

theorem takeHyp_mode (s : State) (y : Syndrome) (vector : Fin 8) (returnAddress : Word) :
    (s.takeHyp y vector returnAddress).mode = modeHyp := by
  change (s.cpsr &&& 0xf80f0000 ||| 0x1da).setWidth 5 = _
  rw [BitVec.setWidth_or, BitVec.setWidth_and]
  exact congrArg (· ||| 0x1a) BitVec.and_zero

end Exceptions

section Instructions

inductive Instr (L : Type*) where
  | movImm (rd : Reg) (imm : Word)
  | mov (rd rm : Reg)
  | addImm (rd rn : Reg) (imm : Word)
  | subImm (rd rn : Reg) (imm : Word)
  | cmpImm (rn : Reg) (imm : Word)
  | ldr (rt rn : Reg) (offset : Word)
  | str (rt rn : Reg) (offset : Word)
  | ldrPc (l : L)
  | stmia (rn : Reg) (rs : List Reg)
  | ldmia (rn : Reg) (rs : List Reg)
  | b (c : Cond) (l : L)
  | bl (l : L)
  | bxLr
  | mrs (rd : Reg) (x : Special)
  | msr (x : Special) (rn : Reg)
  | mrc (rt : Reg) (opc1 crn crm opc2 : ℕ)
  | eret
  | wfe
  deriving DecidableEq

/-- A line of the source: a label, a literal word with the address of a label, an instruction. -/
inductive Line (L : Type*) where
  | label (l : L)
  | word (l : L)
  | instr (i : Instr L)

/-- Text in memory, as the assembler and the linker lay it out. -/
structure Program (L : Type*) where
  address : L → Word
  literal : Word → Option L
  fetch : Word → Option (Instr L)

variable {L : Type*}

/-- Where the lines end. -/
def endOf (a : Word) : List (Line L) → Word
  | [] => a
  | .label _ :: ls => endOf a ls
  | .word _ :: ls => endOf (a + 4) ls
  | .instr _ :: ls => endOf (a + 4) ls

/-- The lines are in the program from `a` on. -/
def Program.Holds (p : Program L) (a : Word) : List (Line L) → Prop
  | [] => True
  | .label l :: ls => p.address l = a ∧ p.Holds a ls
  | .word l :: ls => p.literal a = some l ∧ p.Holds (a + 4) ls
  | .instr i :: ls => p.fetch a = some i ∧ p.Holds (a + 4) ls

instance decidableHolds [DecidableEq L] (p : Program L) (a : Word) (ls : List (Line L)) :
    Decidable (p.Holds a ls) :=
  match ls with
  | [] => inferInstanceAs (Decidable True)
  | .label l :: ls =>
    have := decidableHolds p a ls
    inferInstanceAs (Decidable (p.address l = a ∧ p.Holds a ls))
  | .word l :: ls =>
    have := decidableHolds p (a + 4) ls
    inferInstanceAs (Decidable (p.literal a = some l ∧ p.Holds (a + 4) ls))
  | .instr i :: ls =>
    have := decidableHolds p (a + 4) ls
    inferInstanceAs (Decidable (p.fetch a = some i ∧ p.Holds (a + 4) ls))

/-- The lines are put into a program from `a` on. -/
def Program.place [DecidableEq L] (p : Program L) (a : Word) : List (Line L) → Program L
  | [] => p
  | .label l :: ls => { p with address := Function.update p.address l a }.place a ls
  | .word l :: ls => { p with literal := Function.update p.literal a (some l) }.place (a + 4) ls
  | .instr i :: ls => { p with fetch := Function.update p.fetch a (some i) }.place (a + 4) ls

/-- User mode lacks the instructions on system registers and modes. -/
def State.Privileged (s : State) : Prop := s.mode ≠ 0x10

instance (s : State) : Decidable s.Privileged := by
  unfold State.Privileged
  infer_instance

/-- Registers of Hyp mode are out of reach of the other modes. -/
def SysReg.access (b : Bank) (opc1 crn crm opc2 : ℕ) : Option SysReg :=
  if opc1 = 4 ∧ b ≠ .hyp then none else SysReg.decode opc1 crn crm opc2

/-- The banked registers and ELR_hyp belong to Hyp mode. -/
def Special.Accessible (b : Bank) : Special → Prop
  | .cpsr => True
  | .elrHyp => b = .hyp
  | .sp b' | .lr b' => b = .hyp ∧ b' ≠ .hyp
  | .spsr _ => b = .hyp

instance (b : Bank) (x : Special) : Decidable (x.Accessible b) := by
  cases x <;> unfold Special.Accessible <;> infer_instance

/-- One instruction, in a mode with the bank `b`. -/
def exec (p : Program L) (b : Bank) (s : State) : Instr L → Option State
  | .movImm rd imm => some (s.set b rd imm).next
  | .mov rd rm => some (s.set b rd (s.get b rm)).next
  | .addImm rd rn imm => some (s.set b rd (s.get b rn + imm)).next
  | .subImm rd rn imm => some (s.set b rd (s.get b rn - imm)).next
  | .cmpImm rn imm => some (s.compare (s.get b rn) imm).next
  | .ldr rt rn offset => (s.load (s.get b rn + offset)).map fun v => (s.set b rt v).next
  | .str rt rn offset => (s.store (s.get b rn + offset) (s.get b rt)).map State.next
  | .ldrPc l => (p.literal (p.address l)).map fun t => { s with pc := p.address t }
  | .stmia rn rs =>
    if Aligned (s.get b rn) then
      some { s with mem := storeWords s.mem (s.get b rn) (rs.map (s.get b)) }.next
    else none
  | .ldmia rn rs =>
    if Aligned (s.get b rn) then some (s.loadRegs b (s.get b rn) rs).next else none
  | .b c l => some (if c.Holds s.cpsr then { s with pc := p.address l } else s.next)
  | .bl l => some { s.set b .lr (s.pc + 4) with pc := p.address l }
  | .bxLr => if Aligned (s.get b .lr) then some { s with pc := s.get b .lr } else none
  | .mrs rd x =>
    if s.Privileged ∧ x.Accessible b then some (s.set b rd (s.getSpecial x)).next else none
  | .msr x rn =>
    if s.Privileged ∧ x.Accessible b ∧ x ≠ .cpsr then some (s.setSpecial x (s.get b rn)).next
    else none
  | .mrc rt opc1 crn crm opc2 => (SysReg.access b opc1 crn crm opc2).bind fun x =>
    if s.Privileged then some (s.set b rt (s.sys x)).next else none
  | .eret => if b = .hyp then s.exceptionReturn b s.elrHyp (s.spsr .hyp) else none
  | .wfe => some s.next

/-- The step of a core; none where the program has no instruction, or the core faults. -/
def step (p : Program L) (s : State) : Option State :=
  (Bank.ofMode s.mode).bind fun b => (p.fetch s.pc).bind (exec p b s)

/-- The steps of code in one mode, up to where it leaves the mode. -/
def stepIn (p : Program L) (b : Bank) (s : State) : Option State :=
  if Bank.ofMode s.mode = some b then step p s else none

end Instructions

section Addresses

theorem Aligned.add {a d : Word} (ha : Aligned a) (hd : Aligned d) : Aligned (a + d) := by
  rw [Aligned, BitVec.toNat_add]
  rw [Aligned] at ha hd
  omega

theorem Aligned.sub {a d : Word} (ha : Aligned a) (hd : Aligned d) : Aligned (a - d) := by
  rw [Aligned, BitVec.toNat_sub]
  rw [Aligned] at ha hd
  omega

/-- Words at offsets from `a`. -/
def storeAll (mem : Word → Word) (a : Word) (es : List (Word × Word)) : Word → Word :=
  es.foldl (fun m e => Function.update m (a + e.1) e.2) mem

theorem storeAll_of_ne (mem : Word → Word) (a : Word) {es : List (Word × Word)} {x : Word}
    (hx : ∀ e ∈ es, x ≠ a + e.1) : storeAll mem a es x = mem x := by
  induction es generalizing mem with
  | nil => rfl
  | cons e es ih =>
    rw [storeAll, List.foldl_cons, ← storeAll, ih _ fun e' he' => hx e' (.tail e he')]
    exact Function.update_of_ne (hx e (.head es)) _ _

/-- Of distinct offsets, each keeps its word. -/
theorem storeAll_of_mem (mem : Word → Word) (a : Word) {es : List (Word × Word)}
    (hes : (es.map Prod.fst).Nodup) {d v : Word} (he : (d, v) ∈ es) :
    storeAll mem a es (a + d) = v := by
  induction es generalizing mem with
  | nil => cases he
  | cons e es ih =>
    rw [List.map_cons, List.nodup_cons] at hes
    rw [storeAll, List.foldl_cons, ← storeAll]
    rcases List.mem_cons.mp he with rfl | he
    · rw [storeAll_of_ne, Function.update_self]
      intro e' he' h
      have hd : d = e'.1 := (BitVec.add_right_inj a).mp h
      exact hes.1 (List.mem_map.mpr ⟨e', he', hd.symm⟩)
    · exact ih _ hes.2 he

/-- Successive words with their offsets. -/
def wordsFrom (d : ℕ) : List Word → List (Word × Word)
  | [] => []
  | v :: vs => (BitVec.ofNat 32 d, v) :: wordsFrom (d + 4) vs

theorem mem_wordsFrom (d : ℕ) {vs : List Word} {k : ℕ} (hk : k < vs.length) :
    (BitVec.ofNat 32 (d + 4 * k), vs[k]) ∈ wordsFrom d vs := by
  induction vs generalizing d k with
  | nil => cases hk
  | cons v vs ih =>
    cases k with
    | zero => exact .head _
    | succ k =>
      have hnext := ih (d + 4) (Nat.lt_of_succ_lt_succ hk)
      rw [Nat.add_assoc, Nat.add_comm 4, ← Nat.mul_succ] at hnext
      exact .tail _ hnext

theorem storeWords_eq (mem : Word → Word) (a : Word) (d : ℕ) (vs : List Word) :
    storeWords mem (a + BitVec.ofNat 32 d) vs = storeAll mem a (wordsFrom d vs) := by
  induction vs generalizing mem d with
  | nil => rfl
  | cons v vs ih =>
    have hnext : a + BitVec.ofNat 32 d + 4 = a + BitVec.ofNat 32 (d + 4) := by
      rw [BitVec.ofNat_add, ← BitVec.add_assoc]
      rfl
    rw [storeWords, hnext, ih]
    rfl

theorem add_four_add (a : Word) (k : ℕ) :
    a + 4 + BitVec.ofNat 32 (4 * k) = a + BitVec.ofNat 32 (4 * (k + 1)) := by
  rw [Nat.mul_succ, Nat.add_comm, BitVec.ofNat_add, ← BitVec.add_assoc]
  rfl

end Addresses

section Projections
variable (s : State) (b : Bank) (x : Reg) (v : Word) (a : Word)

@[simp] theorem set_pc : (s.set b x v).pc = s.pc := by cases x <;> rfl
@[simp] theorem set_cpsr : (s.set b x v).cpsr = s.cpsr := by cases x <;> rfl

@[simp] theorem setSpecial_pc (x : Special) : (s.setSpecial x v).pc = s.pc := by cases x <;> rfl

theorem setSpecial_cpsr {x : Special} (hx : x ≠ .cpsr) : (s.setSpecial x v).cpsr = s.cpsr := by
  cases x with
  | cpsr => exact absurd rfl hx
  | elrHyp | sp | lr | spsr => rfl

@[simp] theorem loadRegs_pc (xs : List Reg) : (s.loadRegs b a xs).pc = s.pc := by
  induction xs generalizing s a with
  | nil => rfl
  | cons x xs ih => rw [State.loadRegs, ih, set_pc]

@[simp] theorem loadRegs_cpsr (xs : List Reg) : (s.loadRegs b a xs).cpsr = s.cpsr := by
  induction xs generalizing s a with
  | nil => rfl
  | cons x xs ih => rw [State.loadRegs, ih, set_cpsr]

/-- General registers are loaded from one word each; nothing else changes. -/
theorem loadRegs_map_r {ns : List (Fin 13)} (hns : ns.Nodup) : s.loadRegs b a (ns.map .r) =
    { s with r := fun n =>
        if n ∈ ns then s.mem (a + BitVec.ofNat 32 (4 * ns.idxOf n)) else s.r n } := by
  induction ns generalizing s a with
  | nil => simp [State.loadRegs]
  | cons m ns ih =>
    rw [List.nodup_cons] at hns
    rw [List.map_cons, State.loadRegs, ih _ _ hns.2]
    simp only [State.set]
    congr 1
    funext n
    by_cases hn : n = m
    · subst hn
      simp [hns.1]
    · have hne : m ≠ n := fun h => hn h.symm
      simp only [List.mem_cons, hn, false_or, Function.update_of_ne hn, add_four_add,
        List.idxOf_cons_ne ns hne]

end Projections

section Comparison

theorem getLsbD_withFlags (psr : Word) (n z c v : Bool) (i : ℕ) :
    (withFlags psr n z c v).getLsbD i = if i < 28 then psr.getLsbD i else if i = 28 then v
      else if i = 29 then c else if i = 30 then z else decide (i = 31) && n := by
  simp only [withFlags, BitVec.getLsbD_append, BitVec.getLsbD_ofBool, BitVec.getLsbD_setWidth]
  obtain h | rfl | rfl | rfl | h : i < 28 ∨ i = 28 ∨ i = 29 ∨ i = 30 ∨ 31 ≤ i := by omega
  · simp [h, show i < 31 by omega, show i < 30 by omega, show i < 29 by omega]
  · simp
  · simp
  · simp
  · simp [show ¬ i < 31 by omega, show ¬ i < 28 by omega, show i ≠ 28 by omega,
      show i ≠ 29 by omega, show i ≠ 30 by omega, show i - 31 = 0 ↔ i = 31 by omega]

@[simp] theorem compare_mode (s : State) (x y : Word) : (s.compare x y).mode = s.mode := by
  apply BitVec.eq_of_getLsbD_eq
  intro i hi
  simp only [State.mode, State.compare, BitVec.getLsbD_setWidth, getLsbD_withFlags]
  rw [if_pos (by omega)]

theorem compare_ne (s : State) (x y : Word) : Cond.Holds (s.compare x y).cpsr .ne ↔ x ≠ y := by
  rw [Cond.Holds, State.compare, getLsbD_withFlags]
  simp

end Comparison

section Runs
variable {L : Type*} {p : Program L} {b : Bank}

theorem holds_append (a : Word) (ls ls' : List (Line L)) :
    p.Holds a (ls ++ ls') ↔ p.Holds a ls ∧ p.Holds (endOf a ls) ls' := by
  induction ls generalizing a with
  | nil => simp [Program.Holds, endOf]
  | cons l ls ih => cases l <;> simp [Program.Holds, endOf, ih, and_assoc]

/-- A part of the lines that starts with a label is where the label is. -/
theorem Program.Holds.part {a : Word} {l : L} {ls ls' : List (Line L)} (h : p.Holds a ls)
    (hpart : .label l :: ls' <:+: ls) : p.Holds (p.address l) (.label l :: ls') := by
  obtain ⟨before, after, rfl⟩ := hpart
  rw [holds_append, holds_append] at h
  have hlabel := h.1.2
  rw [hlabel.1]
  exact hlabel

/-- Straight-line code. -/
def execAll (p : Program L) (b : Bank) (s : State) : List (Line L) → Option State
  | [] => some s
  | .label _ :: ls => execAll p b s ls
  | .word _ :: _ => none
  | .instr i :: ls => (exec p b s i).bind fun s' => execAll p b s' ls

/-- The instructions that neither jump nor change the mode. -/
def Instr.plain : Instr L → Bool
  | .ldrPc _ | .b _ _ | .bl _ | .bxLr | .eret => false
  | _ => true

def Line.plain : Line L → Bool
  | .label _ => true
  | .word _ => false
  | .instr i => i.plain

theorem exec_plain {s s' : State} {i : Instr L} (hi : i.plain = true)
    (h : exec p b s i = some s') : s'.pc = s.pc + 4 ∧ s'.mode = s.mode := by
  cases i <;> simp only [exec, State.load, State.store] at h
  case movImm | mov | addImm | subImm =>
    obtain rfl := Option.some.inj h
    simp [State.next, State.mode]
  case cmpImm =>
    obtain rfl := Option.some.inj h
    exact ⟨rfl, compare_mode ..⟩
  case ldr | str | stmia | ldmia | mrs =>
    split at h
    · obtain rfl := Option.some.inj h
      simp [State.next, State.mode]
    · cases h
  case msr =>
    split at h
    · rename_i hx
      obtain rfl := Option.some.inj h
      simp [State.next, State.mode, setSpecial_cpsr _ _ hx.2.2]
    · cases h
  case mrc =>
    obtain ⟨x, -, h⟩ := Option.bind_eq_some_iff.mp h
    split at h
    · obtain rfl := Option.some.inj h
      simp [State.next, State.mode]
    · cases h
  case wfe =>
    obtain rfl := Option.some.inj h
    exact ⟨rfl, rfl⟩
  all_goals cases hi

theorem stepIn_eq {s : State} {i : Instr L} (hb : Bank.ofMode s.mode = some b)
    (hi : p.fetch s.pc = some i) : stepIn p b s = exec p b s i := by
  rw [stepIn, if_pos hb, step, hb, Option.bind_some, hi, Option.bind_some]

theorem step_of_stepIn {s s' : State} (h : stepIn p b s = some s') : step p s = some s' :=
  (Option.ite_none_right_eq_some.mp h).2

theorem mode_of_stepIn_hyp {s s' : State} (h : stepIn p .hyp s = some s') : s.mode = modeHyp :=
  Bank.ofMode_eq_hyp (Option.ite_none_right_eq_some.mp h).1

theorem reaches_step {s s' : State} (h : Reaches (stepIn p b) s s') : Reaches (step p) s s' :=
  Relation.ReflTransGen.mono (fun _ _ => step_of_stepIn) _ _ h

/-- Straight-line code runs to where its lines end. -/
theorem reaches_execAll {s s' : State} {ls : List (Line L)} (hb : Bank.ofMode s.mode = some b)
    (hp : p.Holds s.pc ls) (hls : ls.all Line.plain = true) (h : execAll p b s ls = some s') :
    Reaches (stepIn p b) s s' ∧ s'.pc = endOf s.pc ls ∧ s'.mode = s.mode := by
  induction ls generalizing s with
  | nil =>
    obtain rfl := Option.some.inj h
    exact ⟨.refl, rfl, rfl⟩
  | cons l ls ih =>
    rw [List.all_cons, Bool.and_eq_true] at hls
    cases l with
    | label l => exact ih hb hp.2 hls.2 h
    | word l => cases h
    | instr i =>
      obtain ⟨s1, hs1, h⟩ := Option.bind_eq_some_iff.mp h
      obtain ⟨hpc, hmode⟩ := exec_plain hls.1 hs1
      have hstep : stepIn p b s = some s1 := (stepIn_eq hb hp.1).trans hs1
      obtain ⟨hr, hend, hmode'⟩ := ih (hmode ▸ hb) (hpc ▸ hp.2) hls.2 h
      rw [hpc] at hend
      exact ⟨.head hstep hr, hend, hmode'.trans hmode⟩

theorem execAll_append (s : State) (ls ls' : List (Line L)) :
    execAll p b s (ls ++ ls') = (execAll p b s ls).bind fun s' => execAll p b s' ls' := by
  induction ls generalizing s with
  | nil => rfl
  | cons l ls ih =>
    cases l with
    | label l => exact ih s
    | word l => rfl
    | instr i =>
      rw [List.cons_append, execAll, execAll, Option.bind_assoc]
      exact congrArg _ (funext fun s' => ih s')

theorem execAll_instr {s s' : State} {i : Instr L} (h : exec p b s i = some s')
    (ls : List (Line L)) : execAll p b s (.instr i :: ls) = execAll p b s' ls := by
  rw [execAll, h, Option.bind_some]

end Runs

section Transfers
variable {L : Type*} {p : Program L} {b : Bank}

/-- What code reads into r1 to keep it. -/
inductive Source where
  | coprocessor (opc1 crn crm opc2 : ℕ)
  | special (x : Special)

def Source.read : Source → Instr L
  | .coprocessor opc1 crn crm opc2 => .mrc (.r 1) opc1 crn crm opc2
  | .special x => .mrs (.r 1) x

/-- The value, if the mode may read it. -/
def Source.value (b : Bank) (s : State) : Source → Option Word
  | .coprocessor opc1 crn crm opc2 => (SysReg.access b opc1 crn crm opc2).map s.sys
  | .special x => if x.Accessible b then some (s.getSpecial x) else none

/-- Keep values in the words at offsets from `rn`, one after the other. -/
def saveLines (rn : Reg) (es : List (Source × Word)) : List (Line L) :=
  es.flatMap fun e => [.instr e.1.read, .instr (.str (.r 1) rn e.2)]

/-- Load special registers from the words at offsets from `rn`. -/
def loadLines (rn : Reg) (es : List (Special × Word)) : List (Line L) :=
  es.flatMap fun e => [.instr (.ldr (.r 1) rn e.2), .instr (.msr e.1 (.r 1))]

def State.setSpecials (s : State) (es : List (Special × Word)) : State :=
  es.foldl (fun s e => s.setSpecial e.1 e.2) s

theorem exec_str {s : State} {rt rn : Reg} {d : Word} (h : Aligned (s.get b rn + d)) :
    exec p b s (.str rt rn d) = some { s with
      mem := Function.update s.mem (s.get b rn + d) (s.get b rt), pc := s.pc + 4 } := by
  rw [exec, State.store, if_pos h]
  rfl

theorem exec_ldr {s : State} {rt rn : Reg} {d : Word} (h : Aligned (s.get b rn + d)) :
    exec p b s (.ldr rt rn d) = some (s.set b rt (s.mem (s.get b rn + d))).next := by
  rw [exec, State.load, if_pos h]
  rfl

theorem exec_ldmia {s : State} {rn : Reg} (h : Aligned (s.get b rn)) (rs : List Reg) :
    exec p b s (.ldmia rn rs) = some (s.loadRegs b (s.get b rn) rs).next := if_pos h

theorem exec_eret {s : State} {psr : Word} (hpsr : s.spsr .hyp = psr)
    (hmode : ReturnsTo .hyp (psr.setWidth 5)) : exec p .hyp s .eret =
      some { s with cpsr := psr, pc := alignTarget psr s.elrHyp } := by
  rw [exec, if_pos rfl, hpsr]
  exact if_pos hmode

theorem exec_bxLr {s : State} (h : Aligned (s.get b .lr)) :
    exec p b s .bxLr = some { s with pc := s.get b .lr } := if_pos h

theorem exec_read {s : State} {x : Source} {v : Word} (hs : s.Privileged)
    (h : x.value b s = some v) : exec p b s x.read = some (s.set b (.r 1) v).next := by
  cases x with
  | coprocessor opc1 crn crm opc2 =>
    obtain ⟨x, hx, rfl⟩ := Option.map_eq_some_iff.mp h
    rw [Source.read, exec, hx, Option.bind_some, if_pos hs]
  | special x =>
    obtain ⟨hx, hv⟩ := Option.ite_none_right_eq_some.mp h
    obtain rfl := Option.some.inj hv
    exact if_pos ⟨hs, hx⟩

theorem get_set_r1 (s : State) {x : Reg} (hx : x ≠ .r 1) (v : Word) :
    (s.set b (.r 1) v).get b x = s.get b x := by
  cases x with
  | r n => exact Function.update_of_ne (fun h => hx (congrArg Reg.r h)) _ _
  | sp | lr => rfl

/-- The values get into memory by way of r1. -/
theorem execAll_saveLines {s : State} {rn : Reg} {a : Word} {es : List (Source × Word × Word)}
    (hs : s.Privileged) (hrn : rn ≠ .r 1) (ha : s.get b rn = a)
    (hes : ∀ e ∈ es, e.1.value b s = some e.2.2 ∧ Aligned (a + e.2.1)) :
    ∃ r pc, execAll p b s (saveLines rn (es.map fun e => (e.1, e.2.1))) = some
      { s with r := r, mem := storeAll s.mem a (es.map Prod.snd), pc := pc } ∧
        ∀ n ≠ 1, r n = s.r n := by
  induction es generalizing s with
  | nil => exact ⟨s.r, s.pc, rfl, fun _ _ => rfl⟩
  | cons e es ih =>
    obtain ⟨hv, hd⟩ := hes e (.head es)
    let s1 : State := (s.set b (.r 1) e.2.2).next
    let s2 : State := { s1 with
      mem := Function.update s.mem (a + e.2.1) e.2.2, pc := s1.pc + 4 }
    have ha1 : s1.get b rn = a := (get_set_r1 s hrn _).trans ha
    have hstr : exec p b s1 (.str (.r 1) rn e.2.1) = some s2 := by
      rw [exec_str (ha1.symm ▸ hd), ha1]
      rfl
    have hvalue (x : Source) : x.value b s2 = x.value b s := by
      cases x with
      | coprocessor => rfl
      | special x => cases x <;> rfl
    obtain ⟨r, pc, h, hr⟩ := ih (s := s2) hs ha1 fun e' he' =>
      ⟨(hvalue _).trans (hes e' (.tail e he')).1, (hes e' (.tail e he')).2⟩
    refine ⟨r, pc, ?_, fun n hn => (hr n hn).trans (Function.update_of_ne hn _ _)⟩
    rw [List.map_cons, saveLines, List.flatMap_cons, ← saveLines, List.cons_append,
      List.cons_append, List.nil_append, execAll_instr (exec_read hs hv), execAll_instr hstr]
    exact h

section Specials
variable (s : State) (x : Special) (v : Word) (es : List (Special × Word)) (r : Fin 13 → Word)
  (pc : Word)

theorem setSpecial_r : (s.setSpecial x v).r = s.r := by cases x <;> rfl
theorem setSpecial_mem : (s.setSpecial x v).mem = s.mem := by cases x <;> rfl

theorem setSpecial_with :
    { s with r := r, pc := pc }.setSpecial x v = { s.setSpecial x v with r := r, pc := pc } := by
  cases x <;> rfl

theorem setSpecials_with :
    { s with r := r, pc := pc }.setSpecials es = { s.setSpecials es with r := r, pc := pc } := by
  induction es generalizing s with
  | nil => rfl
  | cons e es ih =>
    rw [State.setSpecials, List.foldl_cons, setSpecial_with]
    exact ih _

end Specials

/-- Special registers get their values from memory by way of r1. -/
theorem execAll_loadLines {s : State} {rn : Reg} {a : Word} {es : List (Special × Word)}
    (hs : s.Privileged) (hrn : rn ≠ .r 1) (ha : s.get b rn = a)
    (hes : ∀ e ∈ es, e.1.Accessible b ∧ e.1 ≠ .cpsr ∧ Aligned (a + e.2) ∧
      ∀ (s : State) (v : Word), (s.setSpecial e.1 v).get b rn = s.get b rn) :
    ∃ r pc, execAll p b s (loadLines rn es) = some
      { s.setSpecials (es.map fun e => (e.1, s.mem (a + e.2))) with r := r, pc := pc } ∧
        ∀ n ≠ 1, r n = s.r n := by
  induction es generalizing s with
  | nil => exact ⟨s.r, s.pc, rfl, fun _ _ => rfl⟩
  | cons e es ih =>
    obtain ⟨hx, hcpsr, hd, hget⟩ := hes e (.head es)
    let v := s.mem (a + e.2)
    let s1 : State := { s.setSpecial e.1 v with r := Function.update s.r 1 v, pc := s.pc + 4 + 4 }
    have hload : exec p b s (.ldr (.r 1) rn e.2) = some (s.set b (.r 1) v).next := by
      rw [exec_ldr (ha.symm ▸ hd), ha]
    have hmsr : exec p b (s.set b (.r 1) v).next (.msr e.1 (.r 1)) = some s1 := by
      have hr1 : (s.set b (.r 1) v).next.get b (.r 1) = v := by
        change Function.update s.r 1 v 1 = v
        exact Function.update_self ..
      rw [exec, if_pos ⟨hs, hx, hcpsr⟩, hr1]
      exact congrArg (fun s => some (State.next s)) (setSpecial_with s e.1 v _ (s.pc + 4))
    have hs1 : s1.Privileged := by
      rw [State.Privileged, State.mode, show s1.cpsr = s.cpsr from setSpecial_cpsr s v hcpsr]
      exact hs
    have ha1 : s1.get b rn = a := by
      have h1 := get_set_r1 (b := b) (s.setSpecial e.1 v) hrn v
      rw [hget, ha, State.set, setSpecial_r] at h1
      rw [← h1]
      cases rn <;> rfl
    have hmem : s1.mem = s.mem := setSpecial_mem s e.1 v
    obtain ⟨r, pc, h, hr⟩ := ih hs1 ha1 fun e' he' => hes e' (.tail e he')
    refine ⟨r, pc, ?_, fun n hn => (hr n hn).trans (Function.update_of_ne hn _ _)⟩
    rw [loadLines, List.flatMap_cons, ← loadLines, List.cons_append, List.cons_append,
      List.nil_append, execAll_instr hload, execAll_instr hmsr, h, hmem, setSpecials_with]
    rfl

end Transfers

end PiPervisor.Library.Aarch32
