import PiPervisor.Hv.Runs

/-! # The frequency of a periodic timer

Delays, expiries and advances move the deadline of a periodic timer and leave
its period as it was started. The frequency query guards the 64-bit period and
divides by its low 32 bits, so it is exact for the periods below 2^32 and for
those longer ones whose low half is above a second, where both quotients are 0.
-/
namespace PiPervisor.Hv
open Library.Transition

variable {P : Platform}

/-- What happens to a started timer. -/
inductive TimerEvent (P : Platform) where
  | delay (now delayTicks : BitVec 64)
  | expire (now : BitVec 64)
  | advance (now : BitVec 64)
  /-- The vCPU changes in some other way, and its timer is left alone. -/
  | elsewhere (vcpu : HvVcpu P)

/-- One event; no result if a catch-up loop never ends. -/
def timerStep (v : HvVcpu P) : TimerEvent P → Option (HvVcpu P)
  | .delay now delayTicks => some (hvVcpuTimerDelay v now delayTicks)
  | .expire now =>
    -- an expired timer is raised, busy or not, and then advanced
    if expires now v then hvVcpuTimerAdvance (hvVirqRaise v virqTimer).2 now else some v
  | .advance now => hvVcpuTimerAdvance v now
  | .elsewhere vcpu => if vcpu.timer = v.timer then some vcpu else none

/-- A running timer with this period. -/
def Periodic (period : BitVec 64) (v : HvVcpu P) : Prop :=
  v.timer.enabled = true ∧ v.timer.period = period

variable {period : BitVec 64}

theorem periodic_hvVcpuTimerStartPeriodic (hp : period ≠ 0) (v : HvVcpu P) (now : BitVec 64) :
    Periodic period (hvVcpuTimerStartPeriodic v now period) := by
  rw [hvVcpuTimerStartPeriodic, if_neg hp]
  exact ⟨rfl, rfl⟩

theorem Periodic.of_timer_eq {v v' : HvVcpu P} (h : Periodic period v)
    (ht : v'.timer = v.timer) : Periodic period v' := by
  rw [Periodic, ht]
  exact h

theorem Periodic.delay {v : HvVcpu P} (h : Periodic period v) (now delayTicks : BitVec 64) :
    Periodic period (hvVcpuTimerDelay v now delayTicks) := by
  rw [hvVcpuTimerDelay]
  split
  · exact h
  · exact ⟨rfl, h.2⟩

/-- Only a one-shot timer is disabled by its advance. -/
theorem Periodic.advance {v v' : HvVcpu P} (h : Periodic period v) (hp : period ≠ 0)
    {now : BitVec 64} (hr : hvVcpuTimerAdvance v now = some v') : Periodic period v' := by
  rw [hvVcpuTimerAdvance, h.1, h.2, if_neg (by decide), if_neg hp, Option.map_eq_some_iff] at hr
  obtain ⟨d, -, rfl⟩ := hr
  exact ⟨h.1, h.2⟩

theorem Periodic.step {v v' : HvVcpu P} (h : Periodic period v) (hp : period ≠ 0)
    {e : TimerEvent P} (hr : timerStep v e = some v') : Periodic period v' := by
  cases e with
  | delay now delayTicks =>
    obtain rfl := Option.some.inj hr
    exact h.delay now delayTicks
  | expire now =>
    rw [timerStep] at hr
    split at hr
    · exact (h.of_timer_eq (hvVirqRaise_keeps_timer v)).advance hp hr
    · exact Option.some.inj hr ▸ h
  | advance now => exact h.advance hp hr
  | elsewhere vcpu =>
    rw [timerStep, Option.ite_none_right_eq_some] at hr
    obtain ⟨ht, heq⟩ := hr
    exact Option.some.inj heq ▸ h.of_timer_eq ht

/-- Dividing a second by the low half of a period gives what dividing it by the period gives,
unless the upper half is dropped from a low half that still divides into a second. -/
theorem ticks_div_low_eq_iff {n : ℕ} (hlow : n % 2 ^ 32 ≠ 0) :
    1000000 / (n % 2 ^ 32) = 1000000 / n ↔ n < 2 ^ 32 ∨ 1000000 < n % 2 ^ 32 := by
  by_cases hn : n < 2 ^ 32
  · rw [Nat.mod_eq_of_lt hn]
    exact iff_of_true rfl (.inl hn)
  · rw [Nat.div_eq_of_lt (show 1000000 < n by omega), Nat.div_eq_zero_iff_lt (by omega)]
    exact ⟨.inr, fun h => h.resolve_left hn⟩

/-- The query on a running periodic timer. -/
theorem frequency_exact_iff {v : HvVcpu P} (h : Periodic period v) (hp : period ≠ 0) :
    (hvVcpuTimerGetFrequency v).map BitVec.toNat = some (1000000 / period.toNat) ↔
      period.toNat < 2 ^ 32 ∨ 1000000 < period.toNat % 2 ^ 32 := by
  have hlow : (period.setWidth 32).toNat = period.toNat % 2 ^ 32 := BitVec.toNat_setWidth ..
  rw [hvVcpuTimerGetFrequency, h.1, h.2, if_neg (by simpa using hp)]
  by_cases hz : period.setWidth 32 = 0
  · -- the low half is the divisor 0
    have hz' : period.toNat % 2 ^ 32 = 0 := by rw [← hlow, hz]; rfl
    have hpos : period.toNat ≠ 0 := fun h0 => hp (BitVec.eq_of_toNat_eq h0)
    rw [if_pos hz]
    apply iff_of_false (by simp)
    omega
  · have hz' : period.toNat % 2 ^ 32 ≠ 0 := by
      intro h0
      apply hz
      apply BitVec.eq_of_toNat_eq
      rw [hlow, h0]
      rfl
    rw [if_neg hz, ← ticks_div_low_eq_iff hz', Option.map_some, Option.some_inj, BitVec.toNat_udiv,
      hlow]
    rfl

/-- The frequency of a started timer is that of its period exactly if the period fits in 32 bits, or
its low word is so large that both quotients are zero. -/
theorem started_frequency_exact_iff (vcpu : HvVcpu P) (now period : BitVec 64) (hp : period ≠ 0)
    (events : List (TimerEvent P)) (v : HvVcpu P)
    (hr : run timerStep (hvVcpuTimerStartPeriodic vcpu now period) events = some v) :
    v.timer.enabled = true ∧
      ((hvVcpuTimerGetFrequency v).map BitVec.toNat = some (1000000 / period.toNat) ↔
        period.toNat < 2 ^ 32 ∨ 1000000 < period.toNat % 2 ^ 32) := by
  have h : Periodic period v := run_invariant (fun _ _ _ h hs => h.step hp hs)
    (periodic_hvVcpuTimerStartPeriodic hp vcpu now) hr
  exact ⟨h.1, frequency_exact_iff h hp⟩

/-- A guest of the first slot before its timer is started. -/
def unstartedGuest : HvVcpu Platform.twoSlots :=
  hvVcpuInit ((resetMemory 0).vcpu 0) 0 0x20000 0x2f000 hypLowerSvcCpsr

theorem started_frequency_exact_iff_millisecond : ∃ v,
    run timerStep (hvVcpuTimerStartPeriodic unstartedGuest 0 1000)
      [.delay 10 5, .expire 20, .advance 2500] = some v ∧
      (hvVcpuTimerGetFrequency v).map BitVec.toNat = some 1000 := by
  obtain ⟨v, hr⟩ : ∃ v, run timerStep (hvVcpuTimerStartPeriodic unstartedGuest 0 1000)
      [.delay 10 5, .expire 20, .advance 2500] = some v :=
    Option.isSome_iff_exists.mp (by decide +kernel)
  obtain ⟨-, hexact⟩ := started_frequency_exact_iff unstartedGuest 0 1000 (by decide) _ v hr
  exact ⟨v, hr, hexact.mpr (.inl (by decide))⟩

/-- A period of 2^32 is accepted, and the query divides by zero. -/
theorem hvVcpuTimerGetFrequency_divides_by_zero :
    (run timerStep (hvVcpuTimerStartPeriodic unstartedGuest 0 (1#64 <<< 32))
      [.delay 10 5, .expire 20]).map (fun v => (v.timer.enabled, hvVcpuTimerGetFrequency v)) =
        some (true, none) := by
  decide +kernel

end PiPervisor.Hv
