import PiPervisor.Hv.Output
import PiPervisor.Hv.Runs

/-! # The UART over whole runs

The guests share one UART with the hypervisor. Its bytes, the traces left out,
are those that the guests ask for, in the order of the requests; and every trace
is printed as its text, with the arguments that its format names.
-/
namespace PiPervisor.Hv
open Stage2 Printk

variable {P : Platform} {b : Boot P}

section Requests

/-- Address of the data register of the virtual UART. -/
def hvGuestUartIo : HvIpa := (hvGuestUartBase + hvGuestAuxMuIoReg).setWidth 64

/-- A store to the data register that the syndrome describes. -/
def HypExceptState.StoresIo (frame : HypExceptState) : Prop :=
  let iss := hsrIss frame.hsr
  hsrEc frame.hsr = hsrEcDataAbortLower ∧ iss &&& hsrIssAbortIsv ≠ 0 ∧
    iss &&& hsrIssAbortFnv = 0 ∧ iss &&& hsrIssAbortS1ptw = 0 ∧ iss &&& hsrIssAbortWnr ≠ 0 ∧
    mmioAccessSize iss ≠ 0 ∧
    faultPage frame.hpfar ||| frame.hdfar.setWidth 64 &&& (hvStage2PageSize - 1) = hvGuestUartIo

instance (frame : HypExceptState) : Decidable frame.StoresIo := by
  unfold HypExceptState.StoresIo
  infer_instance

/-- The byte that a guest asks the hypervisor to print, with a hypercall or a store. -/
def putByte (t : Trap) : Option (BitVec 8) :=
  if t.frame.exceptionType ≠ hypExceptionLowerSync then none
  else if hsrEc t.frame.hsr = hsrEcHvcA32 then hypercallByte t.frame
  else if t.frame.StoresIo then
    (mmioReadGuestReg t.frame (mmioAccessReg (hsrIss t.frame.hsr))).map (·.setWidth 8)
  else none

/-- The low byte of a store does not depend on its size. -/
theorem setWidth_mmioMaskValue (value : BitVec 32) {size : BitVec 32}
    (hsize : size = 1 ∨ size = 2 ∨ size = 4) :
    (mmioMaskValue value size false).setWidth 8 = value.setWidth 8 := by
  have hmask {k : ℕ} (hk : 8 ≤ k) : (value &&& BitVec.ofNat 32 (2 ^ k - 1)).setWidth 8 =
      value.setWidth 8 := by
    ext j hj
    simp only [BitVec.getElem_setWidth, BitVec.getLsbD_and, BitVec.getLsbD_ofNat,
      Nat.testBit_two_pow_sub_one]
    simp [show j < k by omega, show j < 32 by omega]
  rcases hsize with rfl | rfl | rfl
  · exact hmask (k := 8) le_rfl
  · exact hmask (k := 16) (by decide)
  · rfl

variable {h : Hyp P} {c : VcpuIdx P}

/-- The only device region of a guest is that of its UART. -/
theorem VmsBooted.mmio_region {m : Core P} (hv : VmsBooted m) {i : VmIdx P} {ipa : HvIpa}
    {region : HvVmRegion} (hf : hvVmFindRegion (m.scheduler.vm i) ipa = some region)
    (ht : region.type = .mmio) : region = guestUartRegion ∧ ipa.toNat ∈ guestUartRegion.span := by
  rw [hvVmFindRegion] at hf
  obtain ⟨hmem, hspan⟩ := ((hv i).1.sound.table.find_eq_some_iff).mp
    ((hv i).1.refines.regions ▸ hf)
  simp only [guestSpace, List.mem_cons, List.not_mem_nil, or_false] at hmem
  rcases hmem with rfl | rfl | rfl
  · cases ht
  · cases ht
  · exact ⟨rfl, hspan⟩

theorem VmsBooted.find_uartIo {m : Core P} (hv : VmsBooted m) (i : VmIdx P) :
    hvVmFindRegion (m.scheduler.vm i) hvGuestUartIo = some guestUartRegion := by
  have href := (hv i).1
  rw [hvVmFindRegion, href.refines.regions, href.sound.table.find_eq_some_iff]
  exact ⟨by simp [guestSpace], by decide, by decide⟩

/-- An address in the window is told apart by its offset. -/
theorem regionOffset_uart {fault : HvStage2FaultInfo}
    (hspan : fault.ipa.toNat ∈ guestUartRegion.span) :
    regionOffset guestUartRegion fault = hvGuestAuxMuIoReg ↔ fault.ipa = hvGuestUartIo := by
  have hbase : guestUartRegion.ipaBase = 0x10000000#64 := rfl
  obtain ⟨hlo, hhi⟩ := hspan
  have hbase' : guestUartRegion.ipaBase.toNat = 0x10000000 := rfl
  have hsize : guestUartRegion.size.toNat = 0x1000 := rfl
  have hio : hvGuestUartIo = 0x10000040#64 := rfl
  have hreg : hvGuestAuxMuIoReg = 0x40#32 := rfl
  rw [regionOffset, hbase, hio, hreg]
  constructor
  · intro he
    have := congrArg BitVec.toNat he
    bv_omega
  · intro he
    rw [he]
    rfl

/-- The syndrome describes such a store if the handler decodes one. -/
theorem storesIo_iff (hec : hsrEc h.frame.hsr = hsrEcPrefetchAbortLower ∨
    hsrEc h.frame.hsr = hsrEcDataAbortLower) :
    h.frame.StoresIo ↔ (decodeStage2Fault h c).isWrite = true ∧
      (decodeStage2Fault h c).ipa = hvGuestUartIo ∧
      (mmioDecodeAccess (decodeStage2Fault h c)).isSome = true := by
  rcases hec with hec | hec
  · have hnot : ¬ h.frame.StoresIo := fun hs => absurd (hec.symm.trans hs.1) (by decide)
    have hread : (decodeStage2Fault h c).isWrite = false := by simp [decodeStage2Fault, hec]
    simp [hnot, hread]
  · have hdata : hsrEcDataAbortLower ≠ hsrEcPrefetchAbortLower := by decide
    rw [HypExceptState.StoresIo, mmioDecodeAccess]
    simp only [decodeStage2Fault, hec]
    generalize hsrIss h.frame.hsr = iss
    by_cases hisv : iss &&& hsrIssAbortIsv = 0#32
    · simp [hdata, hisv]
    by_cases hfnv : iss &&& hsrIssAbortFnv = 0#32
    · by_cases hs1 : iss &&& hsrIssAbortS1ptw = 0#32
      · by_cases hsize : mmioAccessSize iss = 0#32
        · simp [hdata, hisv, hfnv, hs1, hsize]
        · simp [hdata, hisv, hfnv, hs1, hsize]
      · simp [hdata, hisv, hfnv, hs1]
    · simp [hdata, hisv, hfnv]

/-- A guest prints exactly by such a store. -/
theorem storedByte_eq {i : VmIdx P} (hv : VmsBooted h.toCore) (hvm : (h.vcpu c).vm = some i)
    (hec : hsrEc h.frame.hsr = hsrEcPrefetchAbortLower ∨
      hsrEc h.frame.hsr = hsrEcDataAbortLower) :
    storedByte h c (decodeStage2Fault h c) = if h.frame.StoresIo then
      (mmioReadGuestReg h.frame (mmioAccessReg (hsrIss h.frame.hsr))).map (·.setWidth 8)
    else none := by
  rw [storedByte]
  by_cases hframe : h.frame.StoresIo
  · rw [if_pos hframe]
    obtain ⟨hw, hipa, hdecode⟩ := (storesIo_iff (c := c) hec).mp hframe
    obtain ⟨⟨size, reg⟩, hdecode⟩ := Option.isSome_iff_exists.mp hdecode
    obtain ⟨-, rfl, hsize, rfl⟩ := mmioDecodeAccess_eq_some hdecode
    rw [mmioRequest, hvm, Option.bind_some, hdecode, Option.bind_some, hipa]
    dsimp only
    rw [hv.find_uartIo, Option.bind_some, if_neg (by decide), mmioWriteValue, if_pos hw]
    have hreg : (decodeStage2Fault h c).iss = hsrIss h.frame.hsr := rfl
    rw [hreg] at hsize ⊢
    rcases mmioReadGuestReg h.frame (mmioAccessReg (hsrIss h.frame.hsr)) with - | value
    · rfl
    · rw [Option.map_some, Option.map_some, Option.bind_some, if_pos, Option.map_some,
        setWidth_mmioMaskValue value (mmioAccessSize_valid hsize)]
      have hspan := hipa ▸ (hv.mmio_region (hv.find_uartIo i) rfl).2
      exact ⟨(hv i).1.id ▸ i.isLt, rfl, hw, (regionOffset_uart hspan).mpr hipa⟩
  · rw [if_neg hframe, Option.bind_eq_none_iff]
    intro q hq
    refine if_neg fun hprints => hframe ?_
    obtain ⟨hqvm, hdecode, hregion, htype, -⟩ := mmioRequest_eq_some hq
    obtain ⟨-, -, hw, hoff⟩ := hprints
    obtain ⟨hq1, hq2⟩ := hv.mmio_region hregion htype
    rw [hq1, regionOffset_uart hq2] at hoff
    exact (storesIo_iff (c := c) hec).mpr ⟨hw, hoff, by rw [hdecode]; rfl⟩

/-- What a trap asks for does not depend on the state it finds. -/
theorem requestedByte_takeTrap (hv : VmsBooted h.toCore) (hs : Settled b c h.toCore) {t : Trap}
    (hcan : canTrap h t) : requestedByte (takeTrap h t) = putByte t := by
  have hv' : VmsBooted (takeTrap h t).toCore := hv.keepsTables rfl rfl
  have hcur : hvSchedulerGetCurrent (takeTrap h t) = some c := hs.current
  have hframe : (takeTrap h t).frame = t.frame := rfl
  rw [requestedByte, putByte, hframe]
  by_cases hsync : t.frame.exceptionType = hypExceptionLowerSync
  · rw [if_pos hsync, if_neg (not_not.mpr hsync)]
    by_cases hhvc : hsrEc t.frame.hsr = hsrEcHvcA32
    · rw [if_pos hhvc, if_pos hhvc]
    · rw [if_neg hhvc, if_neg hhvc]
      by_cases habort : hsrEc t.frame.hsr = hsrEcPrefetchAbortLower ∨
          hsrEc t.frame.hsr = hsrEcDataAbortLower
      · rw [if_pos habort, abortByte, hcur, Option.bind_some]
        have hguest : c ≠ hvIdleVcpuIdx P := by
          rintro rfl
          rcases hcan with hirq | ⟨-, hidle⟩
          · exact absurd (hirq.symm.trans hsync) (by decide)
          · have hwfi := (hidle hs.current).1
            rcases habort with he | he <;> exact absurd (hwfi.symm.trans he) (by decide)
        obtain ⟨i, rfl⟩ : ∃ i : VmIdx P, i.castSucc = c := Fin.exists_castSucc_eq.mpr hguest
        have hid : hvSchedulerIsIdleVcpu (takeTrap h t) (some i.castSucc) ≠ true := fun he =>
          hs.roster.guest_id i (eq_of_beq he)
        rw [if_neg hid]
        exact storedByte_eq hv' (hs.roster.guest_vm i) habort
      · rw [if_neg habort, if_neg fun hstore => habort (.inr hstore.1)]
  · rw [if_neg hsync, if_pos hsync]

/-- A trap sends the byte it asks for, whatever its handler decides. -/
theorem sends_takeTrap {r : RunState P} (hr : Running b r) {t : Trap} (hcan : canTrap r.hyp t)
    {a : HypExceptAction} {h' : Hyp P} (hok : hypHandleException (takeTrap r.hyp t) = .ok (a, h')) :
    Sends (putByte t).toList r.hyp h' := by
  obtain ⟨c, hs⟩ := hr.settled
  have hsends := sends_hypHandleException (takeTrap r.hyp t) a h' hok
  rw [requestedByte_takeTrap hr.vms hs hcan] at hsends
  exact hsends.congr rfl

theorem sends_step {r r' : RunState P} (hr : Running b r) {t : Trap} (hstep : r.step t = some r') :
    Sends (putByte t).toList r.hyp r'.hyp := by
  obtain ⟨c, h', -, hcan, hok, rfl⟩ := RunState.step_eq_some hstep
  exact sends_takeTrap hr hcan hok

/-- The bytes of a run are those asked for, in the order of the traps. -/
theorem sends_run {r r' : RunState P} (hr : Running b r) {ts : List Trap}
    (hrun : Library.Transition.run RunState.step r ts = some r') :
    Sends (ts.filterMap putByte) r.hyp r'.hyp := by
  induction ts generalizing r with
  | nil =>
    obtain rfl := Option.some.inj hrun
    exact .of_tx rfl
  | cons t ts ih =>
    rw [Library.Transition.run_cons, Option.bind_eq_some_iff] at hrun
    obtain ⟨r1, hstep, hrun⟩ := hrun
    have hbytes : (t :: ts).filterMap putByte = (putByte t).toList ++ ts.filterMap putByte := by
      rw [List.filterMap_cons]
      cases putByte t <;> rfl
    rw [hbytes]
    exact (sends_step hr hstep).trans (ih (hr.step hstep) hrun)

/-- Initialising the scheduler prints traces only. -/
theorem sends_hvSchedulerInit {h h' : Hyp P} (hr : hvSchedulerInit h = .ok h') : Sends [] h h' := by
  have hturn {h h' : Hyp P} {i : VmIdx P} (hr : initGuestVm h i = .ok h') : Sends [] h h' := by
    rw [initGuestVm] at hr
    rcases hb : buildGuestVm (h.scheduler.vm i) h.stage2TablePools i with e | ⟨vm, pools⟩
    · rw [hb] at hr
      cases hr
    · rw [hb] at hr
      cases hr
      have htrace : Sends [] (h.setVm i vm pools) (traceGuestVm (h.setVm i vm pools) i vm) :=
        .ite (sends_trace _ (List.replicate 5 .word) (by decide) rfl) (.of_tx rfl)
      exact (htrace.congr rfl).before (.of_tx rfl)
  have hloop (l : List (VmIdx P)) {h h' : Hyp P} (hr : l.foldlM initGuestVm h = .ok h') :
      Sends [] h h' := by
    induction l generalizing h with
    | nil =>
      cases hr
      exact .of_tx rfl
    | cons i l ih =>
      rw [List.foldlM_cons] at hr
      rcases hi : initGuestVm h i with e | h1
      · rw [hi] at hr
        cases hr
      · rw [hi] at hr
        exact (ih hr).after (hturn hi)
  rw [hvSchedulerInit] at hr
  dsimp only at hr
  rcases hl : (List.finRange P.hvMaxVms).foldlM initGuestVm { h with scheduler := { h.scheduler with
    curIdx := 0, vcpus := fun i => resetVcpu i (h.vcpu i) } } with e | h1
  · rw [hl] at hr
    cases hr
  · rw [hl] at hr
    cases hr
    exact ((hloop _ hl).congr rfl).before (.of_tx rfl)

theorem sends_main {h : Hyp P} (hr : b.main = .ok h) : Sends [] b.reset h := by
  obtain ⟨h1, vcpus, h1r, -, -, -, hmain⟩ := b.main_eq
  rw [hmain] at hr
  cases hr
  refine (sends_hvSchedulerInit h1r).before (.of_tx ?_)
  have hstarted : (b.started h1 vcpus).uart = h1.uart := by
    rw [Boot.started]
    dsimp only
    split <;> rfl
  have hrearmed (h0 : Hyp P) : (b.rearmed h0).uart = h0.uart := by
    rw [Boot.rearmed]
    split
    · exact uart_hvVtimerRearmPhysical h0
    · rfl
  change (hvMmuActivateVcpu (b.rearmed (b.started h1 vcpus)) 0).uart.tx = _
  rw [(sameDevices_hvMmuActivateVcpu _ 0).uart, hrearmed, hstarted]

/-- The output of a whole run. -/
theorem Boot.sends_run {ts : List Trap} {r : RunState P} (h : b.run ts = some r) :
    Sends (ts.filterMap putByte) b.reset r.hyp := by
  obtain ⟨h0, h0r, hs, hvms, hctx⟩ := b.main_spec
  have hinit : Running b { hyp := h0, lastTrap := fun _ => none } :=
    ⟨⟨0, hs⟩, hvms, fun i g hg _ => hctx i g hg, fun _ _ => rfl⟩
  rw [Boot.run, h0r] at h
  exact (PiPervisor.Hv.sends_run hinit h).after (sends_main h0r)

/-- The state after a run, or after one more trap, which may end it. -/
inductive Boot.Reaches (b : Boot P) : List Trap → Hyp P → Prop where
  | run {ts : List Trap} {r : RunState P} (h : b.run ts = some r) : b.Reaches ts r.hyp
  | last {ts : List Trap} {r : RunState P} {t : Trap} {a : HypExceptAction} {h' : Hyp P}
      (h : b.run ts = some r) (hcan : canTrap r.hyp t)
      (hok : hypHandleException (takeTrap r.hyp t) = .ok (a, h')) : b.Reaches (ts ++ [t]) h'

theorem Boot.Reaches.sends {ts : List Trap} {h' : Hyp P} (h : b.Reaches ts h') :
    Sends (ts.filterMap putByte) b.reset h' := by
  cases h with
  | run h => exact Boot.sends_run h
  | @last ts r t a h' h hcan hok =>
    have hbytes : (ts ++ [t]).filterMap putByte =
        ts.filterMap putByte ++ (putByte t).toList := by
      rw [List.filterMap_append, List.filterMap_cons, List.filterMap_nil]
      cases putByte t <;> rfl
    rw [hbytes]
    exact (Boot.sends_run h).trans (sends_takeTrap (Boot.run_running h) hcan hok)

/-- The bytes on the UART are those that the guests have asked for, in the order of their traps. -/
theorem uart_bytes_are_requests {ts : List Trap} {h' : Hyp P} (h : b.Reaches ts h') :
    bytesSent h'.uart.tx = bytesSent b.reset.uart.tx ++ ts.filterMap putByte := by
  obtain ⟨out, htx, hbytes, -⟩ := h.sends
  rw [htx, bytesSent, List.filterMap_append, ← hbytes]
  rfl

/-- One guest prints a character between two yields. -/
theorem uart_bytes_are_requests_putchar :
    ∃ r, (twoGuests 0).run [hypercallTrap hypercallYield 0, hypercallTrap hypercallPutchar 0x41,
        hypercallTrap hypercallYield 0] = some r ∧ bytesSent r.hyp.uart.tx = [0x41] := by
  obtain ⟨r, hr⟩ := Option.isSome_iff_exists.mp (show ((twoGuests 0).run
    [hypercallTrap hypercallYield 0, hypercallTrap hypercallPutchar 0x41,
      hypercallTrap hypercallYield 0]).isSome = true by decide +kernel)
  exact ⟨r, hr, (uart_bytes_are_requests (.run hr)).trans (by decide)⟩

end Requests

section Text

/-- A newline goes out with a carriage return before it. -/
def printkUartPutc (c : CChar) : List CChar := if c = ascii '\n' then [ascii '\r', c] else [c]

variable (strings : Word → List CChar) (place : String → Word)

def printk (fmt : String) (args : List Word) : Except Fault (List CChar) :=
  (vprintkWithPutc strings (text fmt ++ [0]) args).map (List.flatMap printkUartPutc)

/-- The word that a call passes; a string is passed by its address. -/
def PrintkArg.passed : PrintkArg → Word
  | .word value => value
  | .text value => place value

/-- A byte is sent as it is; a trace prints where it comes from, then its message. -/
def UartOut.send : UartOut → Except Fault (List CChar)
  | .byte value => .ok [value]
  | .trace function format args => do
    let head ← printk strings "TRACE[%s]:%s: " [place "EL2", place function]
    let body ← printk strings format (args.map (PrintkArg.passed place))
    return head ++ body

/-- The characters on the line. -/
def sendAll : List UartOut → Except Fault (List CChar)
  | [] => .ok []
  | u :: out => do
    let head ← u.send strings place
    let rest ← sendAll out
    return head ++ rest

/-- The text of an output. -/
def UartOut.line : UartOut → List CChar
  | .byte value => [value]
  | .trace function format args =>
    (text "TRACE[EL2]:" ++ text function ++ text ": " ++
      formatted ((itemsOf (text format)).getD []) (args.map PrintkArg.arg)).flatMap printkUartPutc

/-- The string constants that the image holds for an output. -/
def UartOut.literals : UartOut → List String
  | .byte _ => []
  | .trace function _ args => "EL2" :: function :: args.filterMap fun
    | .word _ => none
    | .text value => some value

/-- The string is at its place, which is not the null pointer. -/
def Placed (s : String) : Prop := place s ≠ 0 ∧ strings (place s) = text s

variable {strings place}

theorem passedAs_passed {a : PrintkArg} (ha : ∀ s, a = .text s → Placed strings place s) :
    a.arg.PassedAs strings (a.passed place) := by
  cases a with
  | word value => rfl
  | text value => exact ha value rfl

/-- A call that passes what its format asks for prints the text of the format. -/
theorem printk_formatted (fmt : String) (args : List PrintkArg)
    (hk : argKinds (text fmt) = some (args.map fun a => a.arg.kind))
    (ha : ∀ s, PrintkArg.text s ∈ args → Placed strings place s) :
    printk strings fmt (args.map (PrintkArg.passed place)) =
      .ok ((formatted ((itemsOf (text fmt)).getD []) (args.map PrintkArg.arg)).flatMap
        printkUartPutc) := by
  obtain ⟨items, hitems, -⟩ := Option.map_eq_some_iff.mp hk
  have hpassed : List.Forall₂ (Arg.PassedAs strings) (args.map PrintkArg.arg)
      (args.map (PrintkArg.passed place)) := by
    rw [List.forall₂_map_left_iff, List.forall₂_map_right_iff, List.forall₂_same]
    rintro a hmem
    refine passedAs_passed fun s he => ha s (he ▸ hmem)
  rw [printk, vprintkWithPutc_formatted hitems (by rw [hk, List.map_map]; rfl) hpassed, hitems]
  rfl

theorem UartOut.WellFormed.send {u : UartOut} (hw : u.WellFormed)
    (hp : ∀ s ∈ u.literals, Placed strings place s) : u.send strings place = .ok u.line := by
  cases u with
  | byte value => rfl
  | trace function format args =>
    have hel2 : Placed strings place "EL2" := hp _ List.mem_cons_self
    have hfunction : Placed strings place function :=
      hp _ (List.mem_cons_of_mem _ List.mem_cons_self)
    have hargs : ∀ s, PrintkArg.text s ∈ args → Placed strings place s := fun s hs =>
      hp s (List.mem_cons_of_mem _ (List.mem_cons_of_mem _ (List.mem_filterMap.mpr ⟨_, hs, rfl⟩)))
    have hkinds : argKinds (text "TRACE[%s]:%s: ") = some [.text, .text] := by decide
    have hhead : printk strings "TRACE[%s]:%s: " ([.text "EL2", .text function].map
        (PrintkArg.passed place)) = _ :=
      printk_formatted _ _ hkinds (by simp [hel2, hfunction])
    have hitems : formatted ((itemsOf (text "TRACE[%s]:%s: ")).getD [])
        [.text (text "EL2"), .text (text function)] =
          text "TRACE[EL2]:" ++ text function ++ text ": " := rfl
    have hbody := printk_formatted format args hw hargs
    rw [UartOut.send, UartOut.line, List.flatMap_append, ← hitems]
    change (printk strings "TRACE[%s]:%s: " ([.text "EL2", .text function].map
      (PrintkArg.passed place)) >>= fun head => printk strings format _ >>= fun body => _) = _
    rw [hhead, hbody]
    rfl

theorem sendAll_wellFormed {out : List UartOut} (hw : ∀ u ∈ out, u.WellFormed)
    (hp : ∀ u ∈ out, ∀ s ∈ u.literals, Placed strings place s) :
    sendAll strings place out = .ok (out.flatMap UartOut.line) := by
  induction out with
  | nil => rfl
  | cons u out ih =>
    rw [List.forall_mem_cons] at hw hp
    rw [sendAll, hw.1.send hp.1, ih hw.2 hp.2, List.flatMap_cons]
    rfl

/-- Every trace call passes what its format asks for, and printing the history of the UART gives the
formatted lines and the bytes of the guests, in their order. -/
theorem uart_text_is_formatted {ts : List Trap} {h' : Hyp P} (h : b.Reaches ts h') :
    ∃ out, h'.uart.tx = b.reset.uart.tx ++ out ∧ (∀ u ∈ out, u.WellFormed) ∧
      ∀ (strings : Word → List CChar) (place : String → Word),
        (∀ u ∈ out, ∀ s ∈ u.literals, Placed strings place s) →
          sendAll strings place out = .ok (out.flatMap UartOut.line) := by
  obtain ⟨out, htx, -, hwell⟩ := h.sends
  exact ⟨out, htx, hwell, fun _ _ hp => sendAll_wellFormed hwell hp⟩

/-- A guest that exits, with the only string constants of its message. -/
theorem uart_text_is_formatted_exit :
    ∃ r out, (twoGuests 0).run [hypercallTrap hypercallExit 7] = some r ∧
      r.hyp.uart.tx = out ∧ (∀ u ∈ out, u.WellFormed) ∧
        ∀ (strings : Word → List CChar) (place : String → Word),
          (∀ u ∈ out, ∀ s ∈ u.literals, Placed strings place s) →
            sendAll strings place out = .ok (out.flatMap UartOut.line) := by
  obtain ⟨r, hr⟩ := Option.isSome_iff_exists.mp (show ((twoGuests 0).run
    [hypercallTrap hypercallExit 7]).isSome = true by decide +kernel)
  obtain ⟨out, htx, hout⟩ := uart_text_is_formatted (.run hr)
  exact ⟨r, out, hr, htx, hout⟩

end Text

end PiPervisor.Hv
