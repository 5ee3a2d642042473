import PiPervisor.Library.Aarch32
import PiPervisor.Hv.Exceptions

/-! # The assembly code of the hypervisor

The sources line by line: the vector table and the exception path, the loading
of banked registers and the entry of a vCPU. Labels are those of the sources;
the handler, which is only branched to, is a C function.
-/
namespace PiPervisor.Arch
open Library.Aarch32 Hv

inductive Label where
  | hypVectorTable
  | hypResetH | hypUndefH | hypHvcH | hypPrefetchAbortH | hypDataAbortH | hypLowerSyncH
  | hypIrqH | hypFiqH
  | hypUnknown | hypUndef | hypPrefetchAbort | hypDataAbort | hypLowerSync | hypIrq | hypFiq
  | hypHvcFromHyp
  | hypExceptEntryAllocFrame | hypHalt
  | hypLoadBankedRegs | hypEnterVcpuContext
  | hypHandleException
  deriving DecidableEq

/-- The registers from `r lo` to r12. -/
def regsFrom (lo : ℕ) : List Reg := ((List.finRange 13).drop lo).map .r

section Layout

def hypStateR0 : Word := 0
def hypStateR1 : Word := 4
def hypStateLr : Word := 52
def hypStateHsr : Word := 56
def hypStateElrHyp : Word := 60
def hypStateSpsrHyp : Word := 64
def hypStateHdfar : Word := 68
def hypStateHifar : Word := 72
def hypStateHpfar : Word := 76
def hypStateExceptionType : Word := 80
def hypStateSize : Word := 84

def hypActionReturn : Word := 0

def hypBankedSpUsr : Word := 0
def hypBankedSpSvc : Word := 4
def hypBankedLrSvc : Word := 8
def hypBankedSpsrSvc : Word := 12
def hypBankedSpIrq : Word := 16
def hypBankedLrIrq : Word := 20
def hypBankedSpsrIrq : Word := 24

def hypStackTop : Word := 0x4000000

end Layout

section Vectors

/-- Room for a frame; r0 is kept in it and carries the type from here on. -/
def noteType (l : Label) (exceptionType : Word) : List (Line Label) :=
  [.label l,
    .instr (.subImm .sp .sp hypStateSize),
    .instr (.str (.r 0) .sp hypStateR0),
    .instr (.movImm (.r 0) exceptionType)]

/-- One entry of the exception path. -/
def vectorEntry (l : Label) (exceptionType : Word) : List (Line Label) :=
  noteType l exceptionType ++ [.instr (.b .al .hypExceptEntryAllocFrame)]

def hypUnknown := vectorEntry .hypUnknown hypExceptionUnknown
def hypUndef := vectorEntry .hypUndef hypExceptionUndefInstr
def hypPrefetchAbort := vectorEntry .hypPrefetchAbort hypExceptionPrefetchAbort
def hypDataAbort := vectorEntry .hypDataAbort hypExceptionDataAbort
def hypLowerSync := vectorEntry .hypLowerSync hypExceptionLowerSync
def hypIrq := vectorEntry .hypIrq hypExceptionIrq
def hypFiq := vectorEntry .hypFiq hypExceptionFiq
def hypHvcFromHyp := vectorEntry .hypHvcFromHyp hypExceptionHvcFromHyp

/-- The registers that the guest leaves behind. -/
def saveRegisters : List (Line Label) :=
  [.label .hypExceptEntryAllocFrame,
    .instr (.str (.r 0) .sp hypStateExceptionType),
    .instr (.addImm (.r 0) .sp hypStateR1),
    .instr (.stmia (.r 0) (regsFrom 1)),
    .instr (.str .lr .sp hypStateLr)]

/-- HSR, ELR_hyp, SPSR_hyp, HDFAR, HIFAR and HPFAR. -/
def syndromeLayout : List (Source × Word) :=
  [(.coprocessor 4 5 2 0, hypStateHsr), (.special .elrHyp, hypStateElrHyp),
    (.special (.spsr .hyp), hypStateSpsrHyp), (.coprocessor 4 6 0 0, hypStateHdfar),
    (.coprocessor 4 6 0 2, hypStateHifar), (.coprocessor 4 6 0 4, hypStateHpfar)]

def fillFrame : List (Line Label) :=
  saveRegisters ++ saveLines .sp syndromeLayout ++ [.instr (.mov (.r 0) .sp)]

def callHandler : List (Line Label) :=
  [.instr (.bl .hypHandleException)]

def checkAction : List (Line Label) :=
  [.instr (.cmpImm (.r 0) hypActionReturn),
    .instr (.b .ne .hypHalt)]

/-- Where an exception return goes, as the frame has it. -/
def returnLayout : List (Special × Word) :=
  [(.elrHyp, hypStateElrHyp), (.spsr .hyp, hypStateSpsrHyp)]

/-- The frame is loaded and freed. -/
def restoreFrame : List (Line Label) :=
  loadLines .sp returnLayout ++
    [.instr (.ldmia .sp (regsFrom 0)),
      .instr (.ldr .lr .sp hypStateLr),
      .instr (.addImm .sp .sp hypStateSize)]

def hypHalt : List (Line Label) :=
  [.label .hypHalt,
    .instr .wfe,
    .instr (.b .al .hypHalt)]

def hypExceptEntryAllocFrame : List (Line Label) :=
  fillFrame ++ callHandler ++ checkAction ++ restoreFrame ++ [.instr .eret]

def hypVectors : List (Line Label) :=
  hypUnknown ++ hypUndef ++ hypPrefetchAbort ++ hypDataAbort ++ hypLowerSync ++ hypIrq ++
    hypFiq ++ hypHvcFromHyp ++ hypExceptEntryAllocFrame ++ hypHalt

def hypVectorTable : List (Line Label) :=
  [.label .hypVectorTable,
    .instr (.ldrPc .hypResetH),
    .instr (.ldrPc .hypUndefH),
    .instr (.ldrPc .hypHvcH),
    .instr (.ldrPc .hypPrefetchAbortH),
    .instr (.ldrPc .hypDataAbortH),
    .instr (.ldrPc .hypLowerSyncH),
    .instr (.ldrPc .hypIrqH),
    .instr (.ldrPc .hypFiqH),
    .label .hypResetH, .word .hypUnknown,
    .label .hypUndefH, .word .hypUndef,
    .label .hypHvcH, .word .hypHvcFromHyp,
    .label .hypPrefetchAbortH, .word .hypPrefetchAbort,
    .label .hypDataAbortH, .word .hypDataAbort,
    .label .hypLowerSyncH, .word .hypLowerSync,
    .label .hypIrqH, .word .hypIrq,
    .label .hypFiqH, .word .hypFiq]

end Vectors

section Contexts

/-- The banked registers with the words that they are loaded from. -/
def bankedLayout : List (Special × Word) :=
  [(.sp .usr, hypBankedSpUsr), (.sp .svc, hypBankedSpSvc), (.lr .svc, hypBankedLrSvc),
    (.spsr .svc, hypBankedSpsrSvc), (.sp .irq, hypBankedSpIrq), (.lr .irq, hypBankedLrIrq),
    (.spsr .irq, hypBankedSpsrIrq)]

def hypLoadBankedRegs : List (Line Label) :=
  .label .hypLoadBankedRegs :: loadLines (.r 0) bankedLayout ++ [.instr .bxLr]

/-- The arguments of the entry are kept or passed on. -/
def enterArguments : List (Line Label) :=
  [.label .hypEnterVcpuContext,
    .instr (.mov (.r 4) (.r 0)),
    .instr (.mov (.r 0) (.r 1))]

def enterRegisters : List (Line Label) :=
  loadLines (.r 4) returnLayout ++
    [.instr (.ldr .lr (.r 4) hypStateLr),
      .instr (.ldmia (.r 4) (regsFrom 0))]

def hypEnterVcpuContext : List (Line Label) :=
  enterArguments ++ [.instr (.bl .hypLoadBankedRegs)] ++ enterRegisters ++ [.instr .eret]

end Contexts

/-- The text of the hypervisor, its parts somewhere each; the vector table is aligned. -/
structure Text (p : Program Label) : Prop where
  vectorTable : p.Holds (p.address .hypVectorTable) hypVectorTable
  vectors : p.Holds (p.address .hypUnknown) hypVectors
  loadBankedRegs : p.Holds (p.address .hypLoadBankedRegs) hypLoadBankedRegs
  enterVcpuContext : p.Holds (p.address .hypEnterVcpuContext) hypEnterVcpuContext
  aligned : ∀ l, Aligned (p.address l)
  tableAligned : p.address .hypVectorTable &&& ~~~31 = p.address .hypVectorTable
  /-- The body of the handler is C code. -/
  handler : p.fetch (p.address .hypHandleException) = none

section Image

/-- One way to link the parts, the C code behind them. -/
def image : Program Label :=
  Program.place ⟨fun _ => 0x20000, fun _ => none, fun _ => none⟩ 0x8000 (hypVectorTable ++
    hypVectors ++ hypLoadBankedRegs ++ hypEnterVcpuContext)

theorem text_image : Text image where
  vectorTable := by decide +kernel
  vectors := by decide +kernel
  loadBankedRegs := by decide +kernel
  enterVcpuContext := by decide +kernel
  aligned l := by cases l <;> decide +kernel
  tableAligned := by decide +kernel
  handler := by decide +kernel

end Image

end PiPervisor.Arch
