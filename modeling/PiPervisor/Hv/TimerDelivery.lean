import PiPervisor.Hv.Runs

/-! # What the delivery of expired timers leaves behind

The catch-up loop adds the period until the deadline lies after `now`, and no
more often than that, provided that no sum leaves 64 bits. After the delivery no
timer that counts is overdue.
-/
namespace PiPervisor.Hv
open Library.BitField

variable {P : Platform}

/-- The guest is live and its timer is due. -/
def HvVcpu.Due (v : HvVcpu P) (now : BitVec 64) : Prop :=
  v.state ≠ .idle ∧ v.state ≠ .exited ∧ v.timer.enabled = true ∧ v.timer.deadline ≤ now

theorem expires_iff (now : BitVec 64) (v : HvVcpu P) : expires now v = true ↔ v.Due now := by
  simp only [expires, hvVcpuTimerExpired, HvVcpu.Due, Bool.and_eq_true, Bool.not_eq_true',
    Bool.or_eq_false_iff, beq_eq_false_iff_ne, decide_eq_true_eq, ge_iff_le, and_assoc]

/-- `deadline'` is the first deadline after `now` that is a number of periods past `deadline`. -/
def CaughtUp (deadline period deadline' now : BitVec 64) : Prop :=
  ∃ k ≥ 1, deadline'.toNat = deadline.toNat + k * period.toNat ∧ now.toNat < deadline'.toNat ∧
    ∀ j, 1 ≤ j → j < k → deadline.toNat + j * period.toNat ≤ now.toNat

theorem advanceDeadline_caughtUp {now period : BitVec 64} (hp : 0 < period.toNat)
    (hfit : now.toNat + period.toNat < 2 ^ 64) (fuel : ℕ) (d : BitVec 64)
    (hd : d.toNat ≤ now.toNat) (hf : now.toNat < d.toNat + fuel) :
    ∃ d', advanceDeadline now period fuel d = some d' ∧ CaughtUp d period d' now := by
  induction fuel generalizing d with
  | zero => omega
  | succ fuel ih =>
    have hsum : (d + period).toNat = d.toNat + period.toNat := by
      rw [BitVec.toNat_add]
      omega
    rw [advanceDeadline]
    by_cases hge : now ≥ d + period
    · have hge' : d.toNat + period.toNat ≤ now.toNat := hsum ▸ BitVec.le_def.mp hge
      obtain ⟨d', hd', k, hk, heq, hlt, hleast⟩ := ih (d + period) (by omega) (by omega)
      simp only [if_pos hge]
      -- one more period than from the next deadline on
      refine ⟨d', hd', k + 1, by omega, ?_, hlt, ?_⟩
      · rw [heq, hsum, Nat.succ_mul]
        omega
      · intro j hj hjk
        rcases Nat.eq_or_lt_of_le hj with rfl | hj
        · rw [Nat.one_mul]
          exact hge'
        · have := hleast (j - 1) (by omega) (by omega)
          have hmul : j * period.toNat = (j - 1) * period.toNat + period.toNat := by
            rw [← Nat.succ_mul]
            congr 1
            omega
          omega
    · have hlt : now.toNat < d.toNat + period.toNat :=
        hsum ▸ BitVec.lt_def.mp (BitVec.not_le.mp hge)
      simp only [if_neg hge]
      refine ⟨_, rfl, 1, le_rfl, ?_, ?_, fun j hj hjk => by omega⟩
      · rw [hsum, Nat.one_mul]
      · rw [hsum]
        exact hlt

/-- A timer that is due, or whose period fits, has a loop that ends. -/
theorem advanceDeadline_of_fits {now period : BitVec 64} (hp : period ≠ 0)
    (hfit : now.toNat + period.toNat < 2 ^ 64) {d : BitVec 64} (hd : d ≤ now) :
    ∃ d', advanceDeadline now period (2 ^ 64) d = some d' ∧ CaughtUp d period d' now :=
  advanceDeadline_caughtUp (Nat.pos_of_ne_zero fun h => hp (BitVec.eq_of_toNat_eq h)) hfit _ d
    (BitVec.le_def.mp hd) (by have := now.isLt; omega)

/-- The loop ends wherever the deadline is, if `now` and the period fit together. -/
theorem HvVcpuTimer.advances_of_fits (t : HvVcpuTimer) {now : BitVec 64}
    (hfit : now.toNat + t.period.toNat < 2 ^ 64) : t.Advances now := by
  intro hp
  obtain ⟨fuel, hfuel⟩ : ∃ fuel, 2 ^ 64 = fuel + 1 := ⟨2 ^ 64 - 1, by decide⟩
  rw [hfuel, advanceDeadline]
  by_cases hge : now ≥ t.deadline + t.period
  · have hpos : 0 < t.period.toNat := Nat.pos_of_ne_zero fun h => hp (BitVec.eq_of_toNat_eq h)
    obtain ⟨d, hd, -⟩ := advanceDeadline_caughtUp hpos hfit fuel (t.deadline + t.period)
      (BitVec.le_def.mp hge) (by have := now.isLt; omega)
    simp only [if_pos hge]
    exact ⟨d, hd⟩
  · simp only [if_neg hge]
    exact ⟨_, rfl⟩

/-- Once its timer was raised, a guest has the interrupt pending or active. -/
theorem timerBusy_hvVirqRaise (v : HvVcpu P) : timerBusy (hvVirqRaise v virqTimer).2 := by
  rw [hvVirqRaise_timer]
  split
  · assumption
  · refine .inl ?_
    rw [hvVirqIsPending_eq _ (by decide), (hvVcpuWake_virqs _).1]
    exact (getLsbD_or_twoPow v.virqPending virqTimer.toNat virqTimer.toNat (by decide)).trans
      (by simp)

/-- The timer of a guest after the delivery at `now`. -/
structure Delivered (now : BitVec 64) (v v' : HvVcpu P) : Prop where
  busy : timerBusy v'
  oneShot : v.timer.period = 0 → v'.timer.enabled = false
  periodic : v.timer.period ≠ 0 → v'.timer.enabled = true ∧ v'.timer.period = v.timer.period ∧
    CaughtUp v.timer.deadline v.timer.period v'.timer.deadline now

theorem delivered_of_due {now : BitVec 64} {v : HvVcpu P} (hdue : v.Due now)
    (hfit : now.toNat + v.timer.period.toNat < 2 ^ 64) : Delivered now v (delivered now v) := by
  have hbusy := timerBusy_hvVirqRaise v
  have htimer := hvVirqRaise_keeps_timer v
  rw [delivered, if_pos ((expires_iff now v).mpr hdue), hvVcpuTimerAdvance, htimer,
    if_neg (by simp [hdue.2.2.1])]
  by_cases hp : v.timer.period = 0
  · rw [if_pos hp]
    exact ⟨hbusy, fun _ => rfl, fun h => absurd hp h⟩
  · obtain ⟨d, hd, hcaught⟩ := advanceDeadline_of_fits hp hfit hdue.2.2.2
    rw [if_neg hp, hd]
    exact ⟨hbusy, fun h => absurd h hp, fun _ => ⟨hdue.2.2.1, rfl, hcaught⟩⟩

theorem Delivered.not_due {now : BitVec 64} {v v' : HvVcpu P} (h : Delivered now v v') :
    ¬ v'.Due now := by
  rintro ⟨-, -, henabled, hle⟩
  by_cases hp : v.timer.period = 0
  · rw [h.oneShot hp] at henabled
    cases henabled
  · obtain ⟨-, -, k, -, -, hlt, -⟩ := h.periodic hp
    exact absurd (BitVec.le_def.mp hle) (by omega)

/-- The expiry scan comes to an end, serves the timers that are due and no others, and leaves none
that is due. -/
theorem deliverExpiredTimers_postcondition (h : Hyp P) (now : BitVec 64)
    (hfit : ∀ i : VmIdx P, now.toNat + (h.vcpu i.castSucc).timer.period.toNat < 2 ^ 64) :
    ∃ result h', deliverExpiredTimers h now = .ok (result, h') ∧
      (result = true ↔ ∃ i : VmIdx P, (h.vcpu i.castSucc).Due now) ∧
      (∀ i : VmIdx P, (h.vcpu i.castSucc).Due now →
        Delivered now (h.vcpu i.castSucc) (h'.vcpu i.castSucc)) ∧
      (∀ k, (∀ i : VmIdx P, k = i.castSucc → ¬ (h.vcpu k).Due now) → h'.vcpu k = h.vcpu k) ∧
      ∀ i : VmIdx P, ¬ (h'.vcpu i.castSucc).Due now := by
  refine ⟨_, _, deliverExpiredTimers_eq h fun i => HvVcpuTimer.advances_of_fits _ (hfit i),
    ?_, ?_, ?_, ?_⟩
  · rw [anyExpires, List.any_eq_true]
    simp only [List.mem_finRange, true_and, expires_iff]
  · intro i hdue
    rw [deliverAll_guest]
    exact delivered_of_due hdue (hfit i)
  · intro k hk
    change (if k = hvIdleVcpuIdx P then h.vcpu k else delivered now (h.vcpu k)) = _
    split
    · rfl
    · rename_i hne
      obtain ⟨i, rfl⟩ := eq_castSucc_of_ne_idle hne
      apply delivered_of_not_expires
      rw [← Bool.not_eq_true, expires_iff]
      exact hk i rfl
  · intro i
    rw [deliverAll_guest]
    by_cases hdue : (h.vcpu i.castSucc).Due now
    · exact (delivered_of_due hdue (hfit i)).not_due
    · rw [delivered_of_not_expires]
      · exact hdue
      · rw [← Bool.not_eq_true, expires_iff]
        exact hdue

/-- A guest whose timer missed two of its periods by tick 750. -/
def overdueGuest : Hyp Platform.twoSlots :=
  (resetMemory 0).setVcpu 0
    { (resetMemory 0).vcpu 0 with state := .runnable, timer := ⟨true, 500, 100⟩ }

theorem deliverExpiredTimers_postcondition_overdue : ∃ h',
    deliverExpiredTimers overdueGuest 750 = .ok (true, h') ∧
      timerBusy (h'.vcpu 0) ∧ (h'.vcpu 0).timer.deadline = 800 := by
  obtain ⟨result, h', hr, hresult, hdue, -, -⟩ :=
    deliverExpiredTimers_postcondition overdueGuest 750 (by decide)
  have hguest : (overdueGuest.vcpu (firstVm _).castSucc).Due 750 :=
    ⟨by decide, by decide, by decide, by decide⟩
  obtain rfl : result = true := hresult.mpr ⟨firstVm _, hguest⟩
  have hdelivered := hdue (firstVm _) hguest
  obtain ⟨-, -, k, hk, heq, hlt, hleast⟩ := hdelivered.periodic (by decide)
  refine ⟨h', hr, hdelivered.busy, BitVec.eq_of_toNat_eq ?_⟩
  change (h'.vcpu 0).timer.deadline.toNat = 500 + k * 100 at heq
  change 750 < (h'.vcpu 0).timer.deadline.toNat at hlt
  change ∀ j, 1 ≤ j → j < k → 500 + j * 100 ≤ 750 at hleast
  have hk3 := mt (hleast 3 (by omega)) (by omega)
  change _ = 800
  omega

end PiPervisor.Hv
