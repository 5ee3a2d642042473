import PiPervisor.Platform
import Mathlib.Algebra.GroupWithZero.Nat
import Mathlib.Data.Fintype.Basic

/-! # Virtual CPUs

The record of a vCPU and the functions that change one vCPU alone. A vCPU
passed by value is never a null pointer; its VM is a slot of the scheduler's
array or none.
-/
namespace PiPervisor.Hv

/-- There is a register 0. -/
instance (priority := 2000) neZeroRegisters : NeZero 13 := ⟨by decide⟩

/-- The trap frame, as the vector code stores it on the Hyp stack. -/
structure HypExceptState where
  r : Fin 13 → BitVec 32
  lr : BitVec 32
  hsr : BitVec 32
  elrHyp : BitVec 32
  spsrHyp : BitVec 32
  hdfar : BitVec 32
  hifar : BitVec 32
  hpfar : BitVec 32
  exceptionType : BitVec 32
  deriving DecidableEq

structure HypBankedRegs where
  spUsr : BitVec 32
  spSvc : BitVec 32
  lrSvc : BitVec 32
  spsrSvc : BitVec 32
  spIrq : BitVec 32
  lrIrq : BitVec 32
  spsrIrq : BitVec 32
  deriving DecidableEq

structure HvGuestSysRegs where
  sctlr : BitVec 32
  ttbr0 : BitVec 64
  ttbr1 : BitVec 64
  ttbcr : BitVec 32
  dacr : BitVec 32
  vbar : BitVec 32
  deriving DecidableEq

structure HvVcpuContext where
  hypState : HypExceptState
  bankedRegs : HypBankedRegs
  vbar : BitVec 32
  sysRegs : HvGuestSysRegs
  deriving DecidableEq

inductive HvVcpuState where
  | idle
  | runnable
  | running
  | blocked
  | exited
  deriving DecidableEq, Repr

structure HvVcpuTimer where
  enabled : Bool
  deadline : BitVec 64
  period : BitVec 64
  deriving DecidableEq

structure HvVcpu (P : Platform) where
  id : BitVec 32
  vm : Option (Fin P.hvMaxVms)
  state : HvVcpuState
  context : HvVcpuContext
  virqPending : BitVec 32
  virqActive : BitVec 32
  timer : HvVcpuTimer
  deriving DecidableEq

def hvTimerTicksPerSec : BitVec 32 := 1000000

def zeroHypState : HypExceptState := ⟨fun _ => 0, 0, 0, 0, 0, 0, 0, 0, 0⟩
def zeroBankedRegs : HypBankedRegs := ⟨0, 0, 0, 0, 0, 0, 0⟩
def zeroSysRegs : HvGuestSysRegs := ⟨0, 0, 0, 0, 0, 0⟩

/-- The context of a vCPU that has never run. -/
def initialContext (entryPoint stackTop cpsr : BitVec 32) : HvVcpuContext where
  hypState := { zeroHypState with
    elrHyp := entryPoint, spsrHyp := cpsr, r := Function.update (fun _ => 0) 0 stackTop }
  bankedRegs := { zeroBankedRegs with spUsr := stackTop, spSvc := stackTop }
  vbar := 0
  sysRegs := zeroSysRegs

variable {P : Platform}

/-- Every word of the record is cleared, the VM pointer kept, and the entry context written. -/
def hvVcpuInit (vcpu : HvVcpu P) (id entryPoint stackTop cpsr : BitVec 32) : HvVcpu P where
  id := id
  vm := vcpu.vm
  state := .runnable
  context := initialContext entryPoint stackTop cpsr
  virqPending := 0
  virqActive := 0
  timer := ⟨false, 0, 0⟩

def hvVcpuBlock (vcpu : HvVcpu P) : HvVcpu P := { vcpu with state := .blocked }

def hvVcpuWake (vcpu : HvVcpu P) : HvVcpu P :=
  if vcpu.state = .blocked then { vcpu with state := .runnable } else vcpu

def hvVcpuTimerStartPeriodic (vcpu : HvVcpu P) (now period : BitVec 64) : HvVcpu P :=
  if period = 0 then vcpu else { vcpu with timer := ⟨true, now + period, period⟩ }

def hvVcpuTimerDisable (vcpu : HvVcpu P) : HvVcpu P := { vcpu with timer := ⟨false, 0, 0⟩ }

def hvVcpuTimerExpired (vcpu : HvVcpu P) (now : BitVec 64) : Bool :=
  vcpu.timer.enabled && now ≥ vcpu.timer.deadline

/-- The do-while loop of the timer. A deadline takes at most 2^64 values, so a loop that
uses up this much fuel never ends. -/
def advanceDeadline (now period : BitVec 64) : ℕ → BitVec 64 → Option (BitVec 64)
  | 0, _ => none
  | fuel + 1, deadline =>
    let deadline := deadline + period
    if now ≥ deadline then advanceDeadline now period fuel deadline else some deadline

/-- The next deadline after `now`; no result if the loop never ends. -/
def hvVcpuTimerAdvance (vcpu : HvVcpu P) (now : BitVec 64) : Option (HvVcpu P) :=
  if !vcpu.timer.enabled then some vcpu
  else if vcpu.timer.period = 0 then some (hvVcpuTimerDisable vcpu)
  else
    (advanceDeadline now vcpu.timer.period (2 ^ 64) vcpu.timer.deadline).map fun deadline =>
      { vcpu with timer := { vcpu.timer with deadline := deadline } }

def hvVcpuTimerDelay (vcpu : HvVcpu P) (now delayTicks : BitVec 64) : HvVcpu P :=
  if delayTicks = 0 then vcpu
  else
    hvVcpuBlock
      { vcpu with timer := { vcpu.timer with enabled := true, deadline := now + delayTicks } }

/-- No result if the period, narrowed to 32 bits, is the divisor zero. -/
def hvVcpuTimerGetFrequency (vcpu : HvVcpu P) : Option (BitVec 32) :=
  if !vcpu.timer.enabled ∨ vcpu.timer.period = 0 then some 0
  else if vcpu.timer.period.setWidth 32 = 0 then none
  else some (hvTimerTicksPerSec / vcpu.timer.period.setWidth 32)

theorem hvVcpuWake_state (vcpu : HvVcpu P) :
    (hvVcpuWake vcpu).state = if vcpu.state = .blocked then .runnable else vcpu.state := by
  rw [hvVcpuWake]
  split <;> rfl

/-- A positive step below 2^63 moves the deadline up, past every 32-bit `now`. -/
theorem advanceDeadline_climbs {now period : BitVec 64} (hp : 0 < period.toNat)
    (hp' : period.toNat < 2 ^ 63) (hn : now.toNat < 2 ^ 32) (fuel : ℕ) (d : BitVec 64)
    (hd : d.toNat ≤ now.toNat) (hf : now.toNat < d.toNat + fuel) :
    ∃ d', advanceDeadline now period fuel d = some d' ∧ now < d' := by
  induction fuel generalizing d with
  | zero => omega
  | succ fuel ih =>
    have hsum : (d + period).toNat = d.toNat + period.toNat := by
      rw [BitVec.toNat_add]
      omega
    rw [advanceDeadline]
    by_cases hge : now ≥ d + period
    · have hge' : d.toNat + period.toNat ≤ now.toNat := hsum ▸ BitVec.le_def.mp hge
      simp only [if_pos hge]
      exact ih _ (by omega) (by omega)
    · simp only [if_neg hge]
      exact ⟨_, rfl, BitVec.not_le.mp hge⟩

/-- A period of 2^63 or more moves the deadline down, until it wraps above `now`. -/
theorem advanceDeadline_falls {now period : BitVec 64} (hp : 2 ^ 63 ≤ period.toNat)
    (hn : now.toNat < 2 ^ 32) (fuel : ℕ) (d : BitVec 64) (hd : d.toNat ≤ now.toNat)
    (hf : d.toNat < fuel) : ∃ d', advanceDeadline now period fuel d = some d' ∧ now < d' := by
  have hlt := period.isLt
  induction fuel generalizing d with
  | zero => omega
  | succ fuel ih =>
    rw [advanceDeadline]
    by_cases hge : now ≥ d + period
    · have hge' : (d + period).toNat ≤ now.toNat := BitVec.le_def.mp hge
      have hsum : (d + period).toNat = d.toNat + period.toNat - 2 ^ 64 := by
        rw [BitVec.toNat_add] at hge' ⊢
        omega
      rw [BitVec.toNat_add] at hge'
      simp only [if_pos hge]
      exact ih _ (by omega) (by omega)
    · simp only [if_neg hge]
      exact ⟨_, rfl, BitVec.not_le.mp hge⟩

/-- For every value of the 32-bit tick counter the loop ends, past `now`. -/
theorem advanceDeadline_isSome {now period : BitVec 64} (hp : period ≠ 0)
    (hn : now.toNat < 2 ^ 32) (deadline : BitVec 64) :
    ∃ d, advanceDeadline now period (2 ^ 64) deadline = some d ∧ now < d := by
  have hpos : 0 < period.toNat :=
    Nat.pos_of_ne_zero fun h => hp (BitVec.eq_of_toNat_eq h)
  obtain ⟨fuel, hfuel⟩ : ∃ fuel, 2 ^ 64 = fuel + 1 := ⟨2 ^ 64 - 1, by decide⟩
  rw [hfuel, advanceDeadline]
  by_cases hge : now ≥ deadline + period
  · have hge' := BitVec.le_def.mp hge
    simp only [if_pos hge]
    by_cases hsmall : period.toNat < 2 ^ 63
    · exact advanceDeadline_climbs hpos hsmall hn fuel _ hge' (by omega)
    · exact advanceDeadline_falls (by omega) hn fuel _ hge' (by omega)
  · simp only [if_neg hge]
    exact ⟨_, rfl, BitVec.not_le.mp hge⟩

/-- The catch-up loop comes to an end for this timer. -/
def HvVcpuTimer.Advances (t : HvVcpuTimer) (now : BitVec 64) : Prop :=
  t.period ≠ 0 → ∃ d, advanceDeadline now t.period (2 ^ 64) t.deadline = some d

theorem HvVcpuTimer.advances_of_lt (t : HvVcpuTimer) {now : BitVec 64} (hn : now.toNat < 2 ^ 32) :
    t.Advances now := fun hp => by
  obtain ⟨d, hd, -⟩ := advanceDeadline_isSome hp hn t.deadline
  exact ⟨d, hd⟩

/-- Advancing a timer whose loop ends touches only the timer. -/
theorem hvVcpuTimerAdvance_of_advances (vcpu : HvVcpu P) {now : BitVec 64}
    (ha : vcpu.timer.Advances now) :
    ∃ t, hvVcpuTimerAdvance vcpu now = some { vcpu with timer := t } := by
  rw [hvVcpuTimerAdvance]
  split
  · exact ⟨vcpu.timer, rfl⟩
  · split
    · exact ⟨_, rfl⟩
    · rename_i hp
      obtain ⟨d, hd⟩ := ha hp
      rw [hd]
      exact ⟨_, rfl⟩

theorem hvVcpuTimerAdvance_spec (vcpu : HvVcpu P) {now : BitVec 64} (hn : now.toNat < 2 ^ 32) :
    ∃ t, hvVcpuTimerAdvance vcpu now = some { vcpu with timer := t } :=
  hvVcpuTimerAdvance_of_advances vcpu (vcpu.timer.advances_of_lt hn)

end PiPervisor.Hv
