import PiPervisor.Hv.Scheduler

/-! # Hypercalls

The call number is in r0 and the first argument in r1 of the trap frame; the
result goes to r0, before any switch to another vCPU.
-/
namespace PiPervisor.Hv

def hypercallAbiVersion : BitVec 32 := 1
def hypercallHvcImm : BitVec 32 := 0

def hypercallSuccess : BitVec 32 := 0
def hypercallErrUnknown : BitVec 32 := -1
def hypercallErrInvalid : BitVec 32 := -2
def hypercallErrNoPending : BitVec 32 := -3

def hypFeatureBase : BitVec 32 := 1 <<< 0
def hypFeatureVirq : BitVec 32 := 1 <<< 1
def hypFeatureTimer : BitVec 32 := 1 <<< 2
def hypFeatureUart : BitVec 32 := 1 <<< 3

def hypercallGetAbiVersion : BitVec 32 := 0
def hypercallGetFeatures : BitVec 32 := 1
def hypercallExit : BitVec 32 := 2
def hypercallYield : BitVec 32 := 3
def hypercallAdvance : BitVec 32 := 4
def hypercallPutchar : BitVec 32 := 5
def hypercallGetHypIrqCount : BitVec 32 := 6
def hypercallVirqClaim : BitVec 32 := 7
def hypercallVirqComplete : BitVec 32 := 8
def hypercallTimerGetTicks : BitVec 32 := 9
def hypercallTimerDelayTicks : BitVec 32 := 10
def hypercallTimerGetFreq : BitVec 32 := 11

variable {P : Platform}

def hypGetIrqCount (h : Hyp P) : BitVec 32 := h.counter

/-- Store the result of a hypercall in the live frame. -/
def setR0 (h : Hyp P) (value : BitVec 32) : Hyp P :=
  { h with frame := { h.frame with r := Function.update h.frame.r 0 value } }

def doExit (h : Hyp P) : HypExceptAction × Hyp P :=
  match hvSchedulerGetCurrent h with
  | none => (.actionHalt, h)
  | some cur =>
    let h := trace h "hyp_handle_guest_hypercall" "guest exiting, status: %d\n"
      [.word (h.frame.r 1)]
    let h := h.setVcpu cur (hvVcpuTimerDisable (h.vcpu cur))
    let h := setState h cur .exited
    hvSchedulerAdvance (hvVtimerRearmPhysical h)

/-- ABI result of a claim. -/
def claimResult (virq : ℤ) : BitVec 32 :=
  if virq = hvVirqErrNoPending then hypercallErrNoPending
  else if virq < 0 then hypercallErrInvalid
  else BitVec.ofInt 32 virq

def doVirqClaim (h : Hyp P) : HypExceptAction × Hyp P :=
  match hvSchedulerGetCurrent h with
  | none => (.actionReturn, setR0 (hvVirqSync h none) (claimResult hvVirqErrInvalidVcpu))
  | some cur =>
    let (virq, vcpu) := hvVirqClaim (h.vcpu cur)
    (.actionReturn, setR0 (hvVirqSync (h.setVcpu cur vcpu) (some cur)) (claimResult virq))

def doVirqComplete (h : Hyp P) : HypExceptAction × Hyp P :=
  match hvSchedulerGetCurrent h with
  | none => (.actionReturn, setR0 (hvVirqSync h none) hypercallErrInvalid)
  | some cur =>
    let (res, vcpu) := hvVirqComplete (h.vcpu cur) (h.frame.r 1)
    (.actionReturn, setR0 (hvVirqSync (h.setVcpu cur vcpu) (some cur))
      (if res = 0 then hypercallSuccess else hypercallErrInvalid))

def doTimerGetFreq (h : Hyp P) : HypResult P :=
  match hvSchedulerGetCurrent h with
  | none => .ok (.actionReturn, setR0 h 0)
  | some cur =>
    if hvSchedulerIsIdleVcpu h (some cur) then .ok (.actionReturn, setR0 h 0)
    else
      match hvVcpuTimerGetFrequency (h.vcpu cur) with
      | none => .error .divisionByZero
      | some frequency => .ok (.actionReturn, setR0 h frequency)

def doTimerDelayTicks (h : Hyp P) : HypExceptAction × Hyp P :=
  match hvSchedulerGetCurrent h with
  | none => (.actionReturn, setR0 h hypercallErrInvalid)
  | some cur =>
    if hvSchedulerIsIdleVcpu h (some cur) then (.actionReturn, setR0 h hypercallErrInvalid)
    else if h.frame.r 1 = 0 then (.actionReturn, setR0 h hypercallSuccess)
    else
      let (ticks, h) := timSysGetTicks h
      let h := h.setVcpu cur
        (hvVcpuTimerDelay (h.vcpu cur) (ticks.setWidth 64) ((h.frame.r 1).setWidth 64))
      hvSchedulerAdvance (setR0 (hvVtimerRearmPhysical h) hypercallSuccess)

def hypHandleGuestHypercall (h : Hyp P) : HypResult P :=
  let number := h.frame.r 0
  if number = hypercallGetAbiVersion then .ok (.actionReturn, setR0 h hypercallAbiVersion)
  else if number = hypercallGetFeatures then
    .ok (.actionReturn,
      setR0 h (hypFeatureBase ||| hypFeatureVirq ||| hypFeatureTimer ||| hypFeatureUart))
  else if number = hypercallExit then .ok (doExit h)
  else if number = hypercallYield then .ok (hvSchedulerYield h)
  else if number = hypercallPutchar then
    .ok (.actionReturn, setR0 (uartPut8 h ((h.frame.r 1).setWidth 8)) hypercallSuccess)
  else if number = hypercallGetHypIrqCount then .ok (.actionReturn, setR0 h (hypGetIrqCount h))
  else if number = hypercallVirqClaim then .ok (doVirqClaim h)
  else if number = hypercallVirqComplete then .ok (doVirqComplete h)
  else if number = hypercallTimerGetTicks then
    .ok (.actionReturn, setR0 (timSysGetTicks h).2 (timSysGetTicks h).1)
  else if number = hypercallTimerGetFreq then doTimerGetFreq h
  else if number = hypercallTimerDelayTicks then .ok (doTimerDelayTicks h)
  else .ok (.actionHalt, setR0 h hypercallErrUnknown)

section Dispatch

/-- The hypercalls that the dispatcher knows. -/
def HypercallKnown (number : BitVec 32) : Prop :=
  number ∈ [hypercallGetAbiVersion, hypercallGetFeatures, hypercallExit, hypercallYield,
    hypercallPutchar, hypercallGetHypIrqCount, hypercallVirqClaim, hypercallVirqComplete,
    hypercallTimerGetTicks, hypercallTimerDelayTicks, hypercallTimerGetFreq]

instance (number : BitVec 32) : Decidable (HypercallKnown number) := by
  unfold HypercallKnown
  infer_instance

/-- What the dispatcher does, one case for each number that it knows. -/
inductive HypercallCase (h : Hyp P) : HypResult P → Prop
  | getAbiVersion (hn : h.frame.r 0 = hypercallGetAbiVersion) :
      HypercallCase h (.ok (.actionReturn, setR0 h hypercallAbiVersion))
  | getFeatures (hn : h.frame.r 0 = hypercallGetFeatures) :
      HypercallCase h (.ok (.actionReturn,
        setR0 h (hypFeatureBase ||| hypFeatureVirq ||| hypFeatureTimer ||| hypFeatureUart)))
  | exit (hn : h.frame.r 0 = hypercallExit) : HypercallCase h (.ok (doExit h))
  | yield (hn : h.frame.r 0 = hypercallYield) : HypercallCase h (.ok (hvSchedulerYield h))
  | putchar (hn : h.frame.r 0 = hypercallPutchar) :
      HypercallCase h (.ok (.actionReturn,
        setR0 (uartPut8 h ((h.frame.r 1).setWidth 8)) hypercallSuccess))
  | getHypIrqCount (hn : h.frame.r 0 = hypercallGetHypIrqCount) :
      HypercallCase h (.ok (.actionReturn, setR0 h (hypGetIrqCount h)))
  | virqClaim (hn : h.frame.r 0 = hypercallVirqClaim) : HypercallCase h (.ok (doVirqClaim h))
  | virqComplete (hn : h.frame.r 0 = hypercallVirqComplete) :
      HypercallCase h (.ok (doVirqComplete h))
  | timerGetTicks (hn : h.frame.r 0 = hypercallTimerGetTicks) :
      HypercallCase h (.ok (.actionReturn, setR0 (timSysGetTicks h).2 (timSysGetTicks h).1))
  | timerGetFreq (hn : h.frame.r 0 = hypercallTimerGetFreq) : HypercallCase h (doTimerGetFreq h)
  | timerDelayTicks (hn : h.frame.r 0 = hypercallTimerDelayTicks) :
      HypercallCase h (.ok (doTimerDelayTicks h))
  | unknown (hn : ¬ HypercallKnown (h.frame.r 0)) :
      HypercallCase h (.ok (.actionHalt, setR0 h hypercallErrUnknown))

theorem hypHandleGuestHypercall_cases (h : Hyp P) :
    HypercallCase h (hypHandleGuestHypercall h) := by
  rw [hypHandleGuestHypercall]
  split
  case isTrue hn => exact .getAbiVersion hn
  split
  case isTrue hn => exact .getFeatures hn
  split
  case isTrue hn => exact .exit hn
  split
  case isTrue hn => exact .yield hn
  split
  case isTrue hn => exact .putchar hn
  split
  case isTrue hn => exact .getHypIrqCount hn
  split
  case isTrue hn => exact .virqClaim hn
  split
  case isTrue hn => exact .virqComplete hn
  split
  case isTrue hn => exact .timerGetTicks hn
  split
  case isTrue hn => exact .timerGetFreq hn
  split
  case isTrue hn => exact .timerDelayTicks hn
  refine .unknown fun hn => ?_
  simp only [HypercallKnown, List.mem_cons, List.not_mem_nil, or_false] at hn
  tauto

end Dispatch

end PiPervisor.Hv
