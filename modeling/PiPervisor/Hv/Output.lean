import PiPervisor.Hv.MmioSpec
import PiPervisor.Hv.IrqSpec
import PiPervisor.Printk.Arguments

/-! # What an exception handler sends to the UART

The handlers send the texts of their own traces, each with arguments that its
format asks for, and bytes for the guests: the argument of a hypercall, or what
a guest stores in the data register of its UART.
-/
namespace PiPervisor.Hv
open Stage2 Printk

variable {P : Platform}

section Out

/-- The argument as the caller means it. -/
def PrintkArg.arg : PrintkArg → Arg
  | .word value => .word value
  | .text value => .text (Printk.text value)

/-- A trace passes what its format asks for. -/
def UartOut.WellFormed : UartOut → Prop
  | .byte _ => True
  | .trace _ format args => argKinds (text format) = some (args.map fun a => a.arg.kind)

def UartOut.byte? : UartOut → Option (BitVec 8)
  | .byte value => some value
  | .trace _ _ _ => none

/-- The output without the traces. -/
def bytesSent (out : List UartOut) : List (BitVec 8) := out.filterMap UartOut.byte?

/-- Between `h` and `h'` these bytes are sent, and traces that are well formed. -/
def Sends (bytes : List (BitVec 8)) (h h' : Hyp P) : Prop :=
  ∃ out, h'.uart.tx = h.uart.tx ++ out ∧ bytesSent out = bytes ∧ ∀ u ∈ out, u.WellFormed

theorem Sends.of_tx {h h' : Hyp P} (htx : h'.uart.tx = h.uart.tx) : Sends [] h h' :=
  ⟨[], htx.trans (List.append_nil _).symm, rfl, by simp⟩

theorem Sends.trans {bytes bytes' : List (BitVec 8)} {h h1 h' : Hyp P} (h1s : Sends bytes h h1)
    (h2s : Sends bytes' h1 h') : Sends (bytes ++ bytes') h h' := by
  obtain ⟨out, htx, hbytes, hwell⟩ := h1s
  obtain ⟨out', htx', hbytes', hwell'⟩ := h2s
  refine ⟨out ++ out', ?_, ?_, ?_⟩
  · rw [htx', htx, List.append_assoc]
  · rw [bytesSent, List.filterMap_append]
    exact congrArg₂ (· ++ ·) hbytes hbytes'
  · exact List.forall_mem_append.mpr ⟨hwell, hwell'⟩

/-- First something that sends no bytes. -/
theorem Sends.after {bytes : List (BitVec 8)} {h h1 h' : Hyp P} (h2s : Sends bytes h1 h')
    (h1s : Sends [] h h1) : Sends bytes h h' := h1s.trans h2s

theorem Sends.before {bytes : List (BitVec 8)} {h h1 h' : Hyp P} (h1s : Sends bytes h h1)
    (h2s : Sends [] h1 h') : Sends bytes h h' := List.append_nil bytes ▸ h1s.trans h2s

/-- A state with the same UART. -/
theorem Sends.congr {bytes : List (BitVec 8)} {h h1 h' : Hyp P} (h2s : Sends bytes h1 h')
    (htx : h1.uart.tx = h.uart.tx) : Sends bytes h h' := h2s.after (.of_tx htx)

theorem Sends.ite {bytes : List (BitVec 8)} {h h1 h2 : Hyp P} {c : Prop} [Decidable c]
    (h1s : Sends bytes h h1) (h2s : Sends bytes h h2) : Sends bytes h (if c then h1 else h2) := by
  split
  · exact h1s
  · exact h2s

/-- A trace with arguments of the kinds that its format asks for. -/
theorem sends_trace (h : Hyp P) {f s : String} {args : List PrintkArg} (kinds : List ArgKind)
    (hs : argKinds (text s) = some kinds) (hargs : args.map (fun a => a.arg.kind) = kinds) :
    Sends [] h (trace h f s args) :=
  ⟨[.trace f s args], rfl, rfl, by simpa [UartOut.WellFormed, hargs] using hs⟩

theorem sends_uartPut8 (h : Hyp P) (c : BitVec 8) : Sends [c] h (uartPut8 h c) :=
  ⟨[.byte c], rfl, rfl, by simp [UartOut.WellFormed]⟩

theorem sends_send (h : Hyp P) {out : List UartOut} (hwell : ∀ u ∈ out, u.WellFormed) :
    Sends (bytesSent out) h (h.send out) := ⟨out, rfl, rfl, hwell⟩

end Out

section Scheduler
variable (h : Hyp P) (i : VcpuIdx P)

theorem SameDevices.sends {h h' : Hyp P} (hd : SameDevices h h') : Sends [] h h' :=
  .of_tx (congrArg Uart.tx hd.uart)

theorem sends_hvSchedulerSwitchTo : Sends [] h (hvSchedulerSwitchTo h i).2 := by
  have htrace (h0 : Hyp P) (prevId : BitVec 32) : Sends [] h0 (if h0.hvSchedulerVerbose then
      trace h0 "hv_scheduler_switch_to" "sched switch prev=%d next=%d elr=%p\n"
        [.word prevId, .word (h0.vcpu i).id, .word (h0.vcpu i).context.hypState.elrHyp]
      else h0) := .ite (sends_trace h0 [.word, .word, .word] (by decide) rfl) (.of_tx rfl)
  rw [hvSchedulerSwitchTo]
  refine (sameDevices_takeOver _ i).sends.after ((htrace _ _).after ?_)
  split
  · exact .of_tx rfl
  · exact (sameDevices_stopRunning _ _).sends.congr rfl

theorem sends_hvSchedulerEnterIdle : Sends [] h (hvSchedulerEnterIdle h).2 := by
  by_cases hc : h.scheduler.curVcpu = some (hvIdleVcpuIdx P)
  · exact (sameDevices_hvSchedulerEnterIdle h hc).sends
  · rw [hvSchedulerEnterIdle, if_neg hc]
    exact sends_hvSchedulerSwitchTo h _

theorem sends_hvSchedulerYield : Sends [] h (hvSchedulerYield h).2 := by
  rw [hvSchedulerYield]
  split
  · exact .of_tx rfl
  · dsimp only
    split
    · exact .of_tx rfl
    · split
      · exact .of_tx rfl
      · exact (sends_hvSchedulerSwitchTo _ _).congr rfl

theorem sends_hvSchedulerAdvance : Sends [] h (hvSchedulerAdvance h).2 := by
  rw [hvSchedulerAdvance]
  split
  · exact sends_hvSchedulerEnterIdle h
  · rename_i cur hc
    have hstop := congrArg Uart.tx (sameDevices_stopRunning h cur).uart
    dsimp only
    split
    · exact (sends_hvSchedulerEnterIdle _).congr hstop
    · exact (sends_hvSchedulerSwitchTo _ _).congr hstop

theorem sends_hvSchedulerHandleWfi : Sends [] h (hvSchedulerHandleWfi h).2 := by
  rw [hvSchedulerHandleWfi]
  split
  · exact sends_hvSchedulerEnterIdle h
  · split
    · exact sends_hvSchedulerEnterIdle h
    · dsimp only
      split
      · exact (sameDevices_hvVirqSync _ _).sends
      · exact (sends_hvSchedulerAdvance _).congr rfl

theorem uart_hvVtimerRearmPhysical : (hvVtimerRearmPhysical h).uart = h.uart := by
  rw [hvVtimerRearmPhysical]
  split <;> rfl

end Scheduler

section Emulation
variable {h : Hyp P} {c : VcpuIdx P} {fault : HvStage2FaultInfo}

/-- The store reaches the data register of the UART of its VM. -/
def MmioRequest.Prints (q : MmioRequest P) (h : Hyp P) (fault : HvStage2FaultInfo) : Prop :=
  (h.scheduler.vm q.vm).id < P.hvMaxVms ∧ q.region.device = .vuart ∧ fault.isWrite = true ∧
    regionOffset q.region fault = hvGuestAuxMuIoReg

instance (q : MmioRequest P) (h : Hyp P) (fault : HvStage2FaultInfo) :
    Decidable (q.Prints h fault) := by
  unfold MmioRequest.Prints
  infer_instance

/-- The byte that an access sends. -/
def storedByte (h : Hyp P) (c : VcpuIdx P) (fault : HvStage2FaultInfo) : Option (BitVec 8) :=
  (mmioRequest h c fault).bind fun q =>
    if q.Prints h fault then some (q.value.setWidth 8) else none

theorem mmioAccessSize_valid {iss : BitVec 32} (hsize : mmioAccessSize iss ≠ 0) :
    mmioAccessSize iss = 1 ∨ mmioAccessSize iss = 2 ∨ mmioAccessSize iss = 4 := by
  rw [mmioAccessSize] at hsize ⊢
  split at hsize
  · rename_i h0
    exact .inl (if_pos h0)
  · rename_i h0
    rw [if_neg h0]
    split at hsize
    · rename_i h1
      exact .inr (.inl (if_pos h1))
    · rename_i h1
      rw [if_neg h1]
      split at hsize
      · rename_i h2
        exact .inr (.inr (if_pos h2))
      · exact absurd rfl hsize

/-- A store to the data register is served whatever its size, and sends its low byte. -/
theorem MmioRequest.Prints.access {q : MmioRequest P} (hq : q.Prints h fault)
    (hsize : q.size = 1 ∨ q.size = 2 ∨ q.size = 4) :
    q.access h fault = (hvMmioOk, 0, uartPut8 h (q.value.setWidth 8)) := by
  obtain ⟨hid, hdev, hw, hoff⟩ := hq
  have haligned : ¬ regionOffset q.region fault &&& (q.size - 1) ≠ 0 := by
    rw [hoff]
    rcases hsize with hs | hs | hs <;> rw [hs] <;> decide
  have hvalid : vuartValidAccess P (h.scheduler.vm q.vm).id q.size = true := by
    rcases hsize with hs | hs | hs <;> simp [vuartValidAccess, hid, hs]
  rw [MmioRequest.access, hvVirtualDeviceAccess, if_neg (by omega)]
  rw [regionOffset] at haligned hoff
  rw [if_neg haligned, hdev, if_pos hw, hvVuartWrite, hvalid, hoff]
  rfl

/-- An access that is served sends a byte if it is such a store, and nothing otherwise. -/
theorem MmioRequest.sends_access {q : MmioRequest P}
    (hsize : q.size = 1 ∨ q.size = 2 ∨ q.size = 4) (hok : (q.access h fault).1 = hvMmioOk) :
    Sends (if q.Prints h fault then [q.value.setWidth 8] else []) h (q.access h fault).2.2 := by
  by_cases hq : q.Prints h fault
  · rw [if_pos hq, hq.access hsize]
    exact sends_uartPut8 h _
  · rw [if_neg hq]
    obtain ⟨hdev, he⟩ := hvVirtualDeviceAccess_ok hok
    have hid : (h.scheduler.vm q.vm).id < P.hvMaxVms := by
      by_contra hid
      rw [MmioRequest.access, hvVirtualDeviceAccess, if_pos (not_lt.mp hid)] at hok
      exact hvMmioErrUnhandled_ne hok
    refine .of_tx ?_
    rw [MmioRequest.access] at hok ⊢
    rw [he] at hok ⊢
    by_cases hw : fault.isWrite = true
    · rw [if_pos hw] at hok ⊢
      rcases hvVuartWrite_ok hok with ⟨hio, -⟩ | ⟨-, uart, -, hwrite⟩
      · exact absurd ⟨hid, hdev, hw, hio⟩ hq
      · rw [hwrite]
    · rw [if_neg hw] at hok ⊢
      rcases hvVuartRead_ok hok with ⟨-, hread⟩ | ⟨-, v, -, hread⟩
      · rw [hread, uartGet8Async]
        split <;> rfl
      · rw [hread]

theorem uart_mmioFinish (h : Hyp P) (fault : HvStage2FaultInfo) (size reg value : BitVec 32) :
    (mmioFinish h fault size reg value).2.uart = h.uart := by
  rw [mmioFinish]
  split
  · rfl
  · dsimp only
    split <;> rfl

theorem refusalReport_wellFormed :
    bytesSent (refusalReport h c fault) = [] ∧ ∀ u ∈ refusalReport h c fault, u.WellFormed := by
  have hdecode : (decodeReport fault).WellFormed := by
    change argKinds (text _) = some [.word, .word, .word, .word]
    decide
  have hreport (q : MmioRequest P) : (q.report fault).WellFormed := by
    change argKinds (text _) = some [.word, .word, .word, .word, .word, .word]
    decide
  rw [refusalReport]
  split
  · exact ⟨rfl, by simp⟩
  · split
    · exact ⟨rfl, by simpa using hdecode⟩
    · split
      · exact ⟨rfl, by simp⟩
      · split
        · exact ⟨rfl, by simp⟩
        · exact ⟨rfl, by simpa using hreport _⟩

theorem sends_hvMmioHandleFault (h : Hyp P) (c : VcpuIdx P) (fault : HvStage2FaultInfo) :
    Sends (storedByte h c fault).toList h (hvMmioHandleFault h c fault).2 := by
  have hsize {q : MmioRequest P} (hq : mmioRequest h c fault = some q) :
      q.size = 1 ∨ q.size = 2 ∨ q.size = 4 := by
    obtain ⟨-, hdecode, -⟩ := mmioRequest_eq_some hq
    obtain ⟨-, hs, hne, -⟩ := mmioDecodeAccess_eq_some hdecode
    exact hs ▸ mmioAccessSize_valid (hs ▸ hne)
  rcases hvMmioHandleFault_eq h c fault with ⟨he, hno⟩ | ⟨q, hq, hok, he⟩
  · have hnone : storedByte h c fault = none := by
      rw [storedByte, Option.bind_eq_none_iff]
      intro q hq
      refine if_neg fun hp => hno q hq ?_
      rw [hp.access (hsize hq)]
    obtain ⟨hbytes, hwell⟩ := refusalReport_wellFormed (h := h) (c := c)
    have hsend := sends_send h hwell
    rw [hbytes] at hsend
    rw [he, hnone]
    exact hsend
  · have hbyte : (storedByte h c fault).toList =
        if q.Prints h fault then [q.value.setWidth 8] else [] := by
      rw [storedByte, hq, Option.bind_some]
      split <;> rfl
    rw [he, hbyte]
    have hfinish := Sends.of_tx (congrArg Uart.tx (uart_mmioFinish (q.access h fault).2.2 fault
      q.size q.reg (q.access h fault).2.1))
    exact (MmioRequest.sends_access (hsize hq) hok).before hfinish

theorem storedByte_congr {h h1 : Hyp P} (hcore : h1.toCore = h.toCore) (c : VcpuIdx P)
    (fault : HvStage2FaultInfo) : storedByte h1 c fault = storedByte h c fault := by
  cases h
  cases h1
  cases hcore
  rfl

end Emulation

section Handlers

/-- Every state with which a handler comes back has sent these bytes. -/
def ResultSends (bytes : List (BitVec 8)) (h : Hyp P) (r : HypResult P) : Prop :=
  ∀ a h', r = .ok (a, h') → Sends bytes h h'

variable {bytes : List (BitVec 8)} {h h1 : Hyp P} {r r' : HypResult P}

theorem ResultSends.ok {res : HypExceptAction × Hyp P} (hr : Sends bytes h res.2) :
    ResultSends bytes h (.ok res) := by
  rintro a h' he
  cases he
  exact hr

theorem ResultSends.error {e : HypFault} : ResultSends bytes h (.error e) := by
  rintro a h' he
  cases he

theorem ResultSends.after (hr : ResultSends bytes h1 r) (hs : Sends [] h h1) :
    ResultSends bytes h r := fun a h' hok => (hr a h' hok).after hs

theorem ResultSends.ite {c : Prop} [Decidable c] (hr : c → ResultSends bytes h r)
    (hr' : ¬ c → ResultSends bytes h r') : ResultSends bytes h (if c then r else r') := by
  split
  · rename_i hc
    exact hr hc
  · rename_i hc
    exact hr' hc

/-- An assertion fails, or nothing happens. -/
theorem ResultSends.hypAssert {c : Bool} {msg : String} (hr : ResultSends bytes h r) :
    ResultSends bytes h (hypAssert c msg >>= fun _ => r) := by
  cases c with
  | false => exact .error
  | true => exact hr

variable (h)

theorem sends_hypDumpExceptionState : Sends [] h (hypDumpExceptionState h) := by
  have hnone {h0 : Hyp P} {f s : String} (hs : argKinds (text s) = some []) :
      Sends [] h0 (trace h0 f s []) := sends_trace h0 [] hs rfl
  have hword {h0 : Hyp P} {f s : String} {w : BitVec 32} (hs : argKinds (text s) = some [.word]) :
      Sends [] h0 (trace h0 f s [.word w]) := sends_trace h0 [.word] hs rfl
  rw [hypDumpExceptionState]
  refine .after (hnone (by decide)) (.after (hword (by decide)) (.after (hword (by decide)) ?_))
  refine .after (hword (by decide)) (.after (hword (by decide)) (.after (hword (by decide)) ?_))
  refine .after (hword (by decide)) (.after (sends_trace _ [.word, .text] (by decide) rfl) ?_)
  exact .after (hword (by decide)) (.after (hword (by decide)) (hnone (by decide)))

theorem sends_hypDumpUnexpectedExceptionState :
    Sends [] h (hypDumpUnexpectedExceptionState h) := by
  rw [hypDumpUnexpectedExceptionState]
  exact .ite (.of_tx rfl) (sends_hypDumpExceptionState h)

theorem sends_haltWith {f s : String} {args : List PrintkArg} (kinds : List ArgKind)
    (hs : argKinds (text s) = some kinds) (hargs : args.map (fun a => a.arg.kind) = kinds) :
    ResultSends [] h (haltWith h f s args) :=
  .ok ((sends_trace _ kinds hs hargs).after (sends_hypDumpUnexpectedExceptionState h))

theorem sends_logStage2Fault (fault : HvStage2FaultInfo) (route : String) :
    Sends [] h (logStage2Fault h fault route) := by
  rw [logStage2Fault]
  exact .ite (.of_tx rfl)
    (sends_trace h [.text, .word, .word, .word, .text, .word, .word, .word] (by decide) rfl)

theorem sends_logGuestAbort : Sends [] h (logGuestAbort h) := by
  rw [logGuestAbort]
  refine .ite (.of_tx rfl) (Sends.after (sends_trace _ (List.replicate 6 .word) ?_ rfl)
    (sends_trace h [.word, .text, .word, .word] ?_ rfl))
  · decide
  · decide

theorem sends_stopCurrentGuestVcpu (c : VcpuIdx P) :
    Sends [] h (stopCurrentGuestVcpu h c).2 :=
  (sends_hvSchedulerAdvance _).congr (congrArg Uart.tx (uart_hvVtimerRearmPhysical _))

/-- The byte that a hypercall asks for. -/
def hypercallByte (frame : HypExceptState) : Option (BitVec 8) :=
  if frame.r 0 = hypercallPutchar then some ((frame.r 1).setWidth 8) else none

theorem sends_hypHandleGuestHypercall :
    ResultSends (hypercallByte h.frame).toList h (hypHandleGuestHypercall h) := by
  have hexit : Sends [] h (doExit h).2 := by
    rw [doExit]
    split
    · exact .of_tx rfl
    · rename_i cur _
      exact (sends_stopCurrentGuestVcpu (trace h _ _ _) cur).after
        (sends_trace h [.word] (by decide) rfl)
  have hclaim : Sends [] h (doVirqClaim h).2 := by
    rw [doVirqClaim]
    split <;> exact (sameDevices_hvVirqSync _ _).sends
  have hcomplete : Sends [] h (doVirqComplete h).2 := by
    rw [doVirqComplete]
    split <;> exact (sameDevices_hvVirqSync _ _).sends
  have hfreq : ResultSends [] h (doTimerGetFreq h) := by
    rw [doTimerGetFreq]
    split
    · exact .ok (.of_tx rfl)
    · split
      · exact .ok (.of_tx rfl)
      · split
        · exact .error
        · exact .ok (.of_tx rfl)
  have hdelay : Sends [] h (doTimerDelayTicks h).2 := by
    rw [doTimerDelayTicks]
    split
    · exact .of_tx rfl
    · split
      · exact .of_tx rfl
      · split
        · exact .of_tx rfl
        · refine (sends_hvSchedulerAdvance _).after (.of_tx ?_)
          exact congrArg Uart.tx (uart_hvVtimerRearmPhysical _)
  have hnone (hn : h.frame.r 0 ≠ hypercallPutchar) : (hypercallByte h.frame).toList = [] := by
    rw [hypercallByte, if_neg hn]
    rfl
  have hcase := hypHandleGuestHypercall_cases h
  generalize hypHandleGuestHypercall h = result at hcase
  cases hcase with
  | getAbiVersion hn | getFeatures hn | getHypIrqCount hn | timerGetTicks hn =>
    rw [hnone (by rw [hn]; decide)]
    exact .ok (.of_tx rfl)
  | exit hn =>
    rw [hnone (by rw [hn]; decide)]
    exact .ok hexit
  | yield hn =>
    rw [hnone (by rw [hn]; decide)]
    exact .ok (sends_hvSchedulerYield h)
  | putchar hn =>
    rw [hypercallByte, if_pos hn]
    exact .ok ((sends_uartPut8 h _).before (.of_tx rfl))
  | virqClaim hn =>
    rw [hnone (by rw [hn]; decide)]
    exact .ok hclaim
  | virqComplete hn =>
    rw [hnone (by rw [hn]; decide)]
    exact .ok hcomplete
  | timerGetFreq hn =>
    rw [hnone (by rw [hn]; decide)]
    exact hfreq
  | timerDelayTicks hn =>
    rw [hnone (by rw [hn]; decide)]
    exact .ok hdelay
  | unknown hn =>
    rw [hnone fun he => hn (by rw [he]; decide)]
    exact .ok (.of_tx rfl)

/-- The byte that the abort of the current vCPU asks for. -/
def abortByte (h : Hyp P) : Option (BitVec 8) :=
  (hvSchedulerGetCurrent h).bind fun cur =>
    if hvSchedulerIsIdleVcpu h (some cur) then none
    else storedByte h cur (decodeStage2Fault h cur)

theorem abortByte_congr {h h1 : Hyp P} (hcore : h1.toCore = h.toCore) :
    abortByte h1 = abortByte h := by
  cases h
  cases h1
  cases hcore
  rfl

theorem sends_handleGuestAbort : Sends (abortByte h).toList h (handleGuestAbort h).2 := by
  have hlog (h1 : Hyp P) {bytes : List (BitVec 8)} {h2 : Hyp P} {fault : HvStage2FaultInfo}
      {route : String} (hs : Sends bytes (logStage2Fault h1 fault route) h2) : Sends bytes h1 h2 :=
    hs.after (sends_logStage2Fault h1 fault route)
  have hroute (h1 : Hyp P) (cur : VcpuIdx P) (vm : VmIdx P) (hvm : (h1.vcpu cur).vm = some vm) :
      Sends (storedByte h1 cur (decodeStage2Fault h1 cur)).toList h1
        (routeGuestAbort h1 cur vm).2 := by
    have hno {o : Option HvVmRegion}
        (ho : hvVmFindRegion (h1.scheduler.vm vm) (decodeStage2Fault h1 cur).ipa = o)
        (ht : ∀ region, o = some region → region.type ≠ .mmio) :
        storedByte h1 cur (decodeStage2Fault h1 cur) = none := by
      rw [storedByte, Option.bind_eq_none_iff]
      intro q hq
      obtain ⟨hqvm, -, hregion, htype, -⟩ := mmioRequest_eq_some hq
      rw [Option.some.inj (hqvm.symm.trans hvm)] at hregion
      exact absurd htype (ht _ (ho.symm.trans hregion))
    rw [routeGuestAbort]
    dsimp only
    split
    · rename_i hnone
      rw [hno hnone (by simp)]
      exact hlog _ (sends_stopCurrentGuestVcpu _ cur)
    · rename_i region hregion
      split
      · rename_i htype
        rw [hno hregion (by rintro _ ⟨⟩; simp [htype])]
        exact hlog _ (sends_stopCurrentGuestVcpu _ cur)
      · have hmmio := sends_hvMmioHandleFault (logStage2Fault h1 (decodeStage2Fault h1 cur) "mmio")
          cur (decodeStage2Fault h1 cur)
        rw [storedByte_congr (toCore_logStage2Fault ..)] at hmmio
        split
        · exact hlog _ (hmmio.before (.of_tx rfl))
        · exact hlog _ (hmmio.before (hlog _ (sends_stopCurrentGuestVcpu _ cur)))
      · rename_i htype
        rw [hno hregion (by rintro _ ⟨⟩; simp [htype])]
        split <;> exact hlog _ (sends_stopCurrentGuestVcpu _ cur)
  rw [handleGuestAbort, ← abortByte_congr (toCore_logGuestAbort h)]
  refine .after ?_ (sends_logGuestAbort h)
  rw [abortByte]
  generalize logGuestAbort h = h1
  rcases hc : hvSchedulerGetCurrent h1 with - | cur
  · exact .of_tx rfl
  · rw [Option.bind_some]
    dsimp only
    by_cases hidle : hvSchedulerIsIdleVcpu h1 (some cur) = true
    · rw [if_pos hidle, if_pos hidle]
      exact .of_tx rfl
    · rw [if_neg hidle, if_neg hidle]
      rcases hvm : (h1.vcpu cur).vm with - | vm
      · have hnone : storedByte h1 cur (decodeStage2Fault h1 cur) = none := by
          rw [storedByte, mmioRequest, hvm]
          rfl
        rw [hnone]
        exact sends_logStage2Fault h1 _ _
      · exact hroute h1 cur vm hvm

/-- The byte that an exception asks the hypervisor to send. -/
def requestedByte (h : Hyp P) : Option (BitVec 8) :=
  if h.frame.exceptionType = hypExceptionLowerSync then
    if hsrEc h.frame.hsr = hsrEcHvcA32 then hypercallByte h.frame
    else if hsrEc h.frame.hsr = hsrEcPrefetchAbortLower ∨ hsrEc h.frame.hsr = hsrEcDataAbortLower
      then abortByte h
    else none
  else none

theorem sends_handleLowerSync (ht : h.frame.exceptionType = hypExceptionLowerSync) :
    ResultSends (requestedByte h).toList h (handleLowerSync h) := by
  rw [handleLowerSync, requestedByte, if_pos ht]
  refine .hypAssert (.ite (fun hhvc => ?_) fun hhvc => ?_)
  · rw [if_pos hhvc]
    exact .hypAssert (.hypAssert (sends_hypHandleGuestHypercall h))
  rw [if_neg hhvc]
  refine .ite (fun hwfi => ?_) fun _ => .ite (fun habort => ?_) fun habort => ?_
  · rw [if_neg (by rw [hwfi]; decide)]
    refine .ite (fun _ => ?_) fun _ => .ok (sends_hvSchedulerHandleWfi h)
    exact sends_haltWith h [] (by decide) rfl
  · rw [if_pos habort]
    exact .ok (sends_handleGuestAbort h)
  · rw [if_neg habort]
    refine .ite (fun _ => ?_) fun _ => sends_haltWith h [] (by decide) rfl
    exact sends_haltWith h [.word, .word] (by decide) rfl

/-- One turn of the delivery prints at most that the interrupt could not be raised. -/
theorem sends_deliverExpiredTimer (now : BitVec 64) (acc acc' : Bool × Hyp P) (i : VmIdx P)
    (hr : deliverExpiredTimer now acc i = .ok acc') : Sends [] acc.2 acc'.2 := by
  rw [deliverExpiredTimer] at hr
  dsimp only at hr
  split at hr
  · cases hr
    exact .of_tx rfl
  · split at hr
    · cases hr
      exact sends_trace acc.2 [.word] (by decide) rfl
    · split at hr
      · cases hr
      · cases hr
        exact .of_tx rfl

theorem sends_foldlM_deliverExpiredTimer (now : BitVec 64) (l : List (VmIdx P))
    (acc acc' : Bool × Hyp P) (hr : l.foldlM (deliverExpiredTimer now) acc = .ok acc') :
    Sends [] acc.2 acc'.2 := by
  induction l generalizing acc with
  | nil =>
    cases hr
    exact .of_tx rfl
  | cons i l ih =>
    rw [List.foldlM_cons] at hr
    rcases hd : deliverExpiredTimer now acc i with e | acc1
    · rw [hd] at hr
      cases hr
    · rw [hd] at hr
      exact (ih acc1 hr).after (sends_deliverExpiredTimer now acc acc1 i hd)

theorem uart_genTimRearm {h h' : Hyp P} (hr : genTimRearm h = .ok h') : h'.uart = h.uart := by
  rw [genTimRearm] at hr
  rcases hc : h.genTimer.periodTicks != 0 with - | - <;> rw [hc] at hr <;> cases hr
  rfl

theorem sends_handleGenericTimer : ResultSends [] h (handleGenericTimer h) := by
  have hadvance : Sends [] h (hvSchedulerAdvance (countIrq (genTimAck h))).2 :=
    (sends_hvSchedulerAdvance _).congr rfl
  rw [handleGenericTimer]
  generalize hvSchedulerAdvance (countIrq (genTimAck h)) = r at hadvance
  rcases r with ⟨action, h1⟩
  dsimp only
  rcases hg : genTimRearm h1 with e | h2
  · exact .error
  · exact .ok (hadvance.before (.of_tx (congrArg Uart.tx (uart_genTimRearm hg))))

theorem sends_handleBcmTimer : ResultSends [] h (handleBcmTimer h) := by
  rw [handleBcmTimer]
  dsimp only
  rcases hd : deliverExpiredTimers (timSysGetTicks (countIrq (timClearPending h))).2
    ((timSysGetTicks (countIrq (timClearPending h))).1.setWidth 64) with e | acc
  · exact .error
  · have hacc : Sends [] h acc.2 := (sends_foldlM_deliverExpiredTimer _ _ _ acc hd).congr rfl
    have hrearm : Sends [] h (hvVtimerRearmPhysical acc.2) :=
      hacc.before (.of_tx (congrArg Uart.tx (uart_hvVtimerRearmPhysical _)))
    have hsync : Sends [] h (if acc.1 then hvVirqSync (hvVtimerRearmPhysical acc.2)
        (hvSchedulerGetCurrent (hvVtimerRearmPhysical acc.2))
        else hvVtimerRearmPhysical acc.2) :=
      .ite (hrearm.before ((sameDevices_hvVirqSync _ _).sends)) hrearm
    have hfinish (h2 : Hyp P) (hs : Sends [] h h2) :
        ResultSends [] h (if hvSchedulerIsIdleVcpu h2 (hvSchedulerGetCurrent h2) then
          .ok (hvSchedulerAdvance h2) else .ok (.actionReturn, h2)) :=
      .ite (fun _ => .ok (hs.before (sends_hvSchedulerAdvance h2))) fun _ => .ok hs
    exact hfinish _ hsync

theorem sends_handleIrq : ResultSends [] h (handleIrq h) := by
  rw [handleIrq]
  refine .ite (fun _ => sends_handleGenericTimer h) fun _ => ?_
  exact .ite (fun _ => sends_handleBcmTimer h) fun _ => sends_haltWith h [] (by decide) rfl

theorem sends_handleOwnException {f s : String} (exceptType : BitVec 32)
    (hs : argKinds (text s) = some []) :
    ResultSends [] h (handleOwnException f s exceptType h) := by
  rw [handleOwnException]
  refine .hypAssert (.ok ?_)
  exact (sends_trace _ [] hs rfl).after (sends_hypDumpUnexpectedExceptionState h)

/-- Exceptions of every type, in every state, with every action. -/
theorem sends_hypHandleException :
    ResultSends (requestedByte h).toList h (hypHandleException h) := by
  have htrace : Sends [] h (traceException h) :=
    .ite (sends_hypDumpExceptionState h) (.of_tx rfl)
  have hcore : (traceException h).toCore = h.toCore := by
    rw [traceException]
    split
    · exact toCore_hypDumpExceptionState h
    · rfl
  have hbyte : requestedByte h = requestedByte (traceException h) := by
    rw [requestedByte, requestedByte, hcore, abortByte_congr hcore]
  have hnone {h0 : Hyp P} {type : BitVec 32} (ht : h0.frame.exceptionType = type)
      (hne : type ≠ hypExceptionLowerSync) : requestedByte h0 = none :=
    if_neg fun he => hne (ht.symm.trans he)
  rw [hypHandleException, hbyte]
  refine .after ?_ htrace
  generalize traceException h = h
  refine .ite (fun ht => ?_) fun _ => .ite (fun ht => ?_) fun _ => .ite (fun ht => ?_) fun _ =>
    .ite (fun ht => ?_) fun _ => .ite (fun ht => ?_) fun _ => .ite (fun ht => ?_) fun hsync => ?_
  · rw [hnone ht (by decide)]
    exact sends_handleOwnException h _ (by decide)
  · rw [hnone ht (by decide)]
    exact sends_handleOwnException h _ (by decide)
  · rw [hnone ht (by decide)]
    exact .hypAssert (.ok (sends_trace h [] (by decide) rfl))
  · rw [hnone ht (by decide)]
    exact sends_handleOwnException h _ (by decide)
  · rw [hnone ht (by decide)]
    exact sends_handleOwnException h _ (by decide)
  · exact sends_handleLowerSync h ht
  · rw [requestedByte, if_neg hsync]
    refine .ite (fun _ => sends_handleIrq h) fun _ => .ite (fun _ => ?_) fun _ => ?_
    · exact sends_haltWith h [] (by decide) rfl
    · exact sends_haltWith h [] (by decide) rfl

end Handlers

end PiPervisor.Hv
