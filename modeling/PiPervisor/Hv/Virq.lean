import PiPervisor.Library.BitField
import PiPervisor.Library.Transition
import PiPervisor.Hv.Vcpu

/-! # Virtual interrupts

Each source is a bit in the pending or the active word of a vCPU. Counting the
results of the calls on a vCPU gives the two words back: an interrupt that was
raised is claimed once, and completed once, before it can be raised again.
-/
namespace PiPervisor.Hv
open Library.BitField Library.Transition

def hvMaxVirqs : BitVec 32 := 32

def hvVirqErrInvalidVcpu : ℤ := -1
def hvVirqErrInvalidVirq : ℤ := -2
def hvVirqErrBusy : ℤ := -3
def hvVirqErrNoPending : ℤ := -4
def hvVirqErrNotActive : ℤ := -5

def virqTimer : BitVec 32 := 0

variable {P : Platform}

/-- The source check; a null vCPU is turned away by the callers that can have one. -/
def validate (virqSource : BitVec 32) : ℤ :=
  if virqSource ≥ hvMaxVirqs then hvVirqErrInvalidVirq else 0

def hvVirqIsPending (vcpu : HvVcpu P) (virqSource : BitVec 32) : Bool :=
  if validate virqSource ≠ 0 then false else vcpu.virqPending &&& 1#32 <<< virqSource != 0

def hvVirqIsActive (vcpu : HvVcpu P) (virqSource : BitVec 32) : Bool :=
  if validate virqSource ≠ 0 then false else vcpu.virqActive &&& 1#32 <<< virqSource != 0

def hvVirqRaise (vcpu : HvVcpu P) (virqSource : BitVec 32) : ℤ × HvVcpu P :=
  if validate virqSource ≠ 0 then (validate virqSource, vcpu)
  else if hvVirqIsPending vcpu virqSource ∨ hvVirqIsActive vcpu virqSource then
    (hvVirqErrBusy, vcpu)
  else (0, hvVcpuWake { vcpu with virqPending := vcpu.virqPending ||| 1#32 <<< virqSource })

/-- The first source whose bit is set, in the order of the loop. -/
def firstPending (pending : BitVec 32) : Option ℕ :=
  (List.range 32).find? fun i => pending &&& 1#32 <<< i != 0

def hvVirqClaim (vcpu : HvVcpu P) : ℤ × HvVcpu P :=
  if vcpu.virqPending = 0 then (hvVirqErrNoPending, vcpu)
  else
    match firstPending vcpu.virqPending with
    | none => (hvVirqErrNoPending, vcpu)
    | some i =>
      (i, { vcpu with
        virqPending := vcpu.virqPending &&& ~~~(1#32 <<< i)
        virqActive := vcpu.virqActive ||| 1#32 <<< i })

def hvVirqComplete (vcpu : HvVcpu P) (virq : BitVec 32) : ℤ × HvVcpu P :=
  if validate virq ≠ 0 then (validate virq, vcpu)
  else if !hvVirqIsActive vcpu virq then (hvVirqErrNotActive, vcpu)
  else (0, { vcpu with virqActive := vcpu.virqActive &&& ~~~(1#32 <<< virq) })

theorem virqs_hvVirqClaim {v w : HvVcpu P} (hp : v.virqPending = w.virqPending)
    (ha : v.virqActive = w.virqActive) :
    (hvVirqClaim v).2.virqPending = (hvVirqClaim w).2.virqPending ∧
      (hvVirqClaim v).2.virqActive = (hvVirqClaim w).2.virqActive := by
  rw [hvVirqClaim, hvVirqClaim, hp]
  split
  · exact ⟨hp, ha⟩
  · rcases firstPending w.virqPending with - | i
    · exact ⟨hp, ha⟩
    · exact ⟨rfl, congrArg (· ||| 1#32 <<< i) ha⟩

theorem virqs_hvVirqComplete {v w : HvVcpu P} (hp : v.virqPending = w.virqPending)
    (ha : v.virqActive = w.virqActive) (virq : BitVec 32) :
    (hvVirqComplete v virq).2.virqPending = (hvVirqComplete w virq).2.virqPending ∧
      (hvVirqComplete v virq).2.virqActive = (hvVirqComplete w virq).2.virqActive := by
  rw [hvVirqComplete, hvVirqComplete, hvVirqIsActive, hvVirqIsActive, ha]
  split
  · exact ⟨hp, ha⟩
  · split
    · exact ⟨hp, ha⟩
    · exact ⟨hp, rfl⟩

theorem validate_eq_zero_iff (s : BitVec 32) : validate s = 0 ↔ s.toNat < 32 := by
  have h : s ≥ hvMaxVirqs ↔ 32 ≤ s.toNat := BitVec.le_def
  rw [validate]
  by_cases hs : s ≥ hvMaxVirqs
  · rw [if_pos hs]
    exact iff_of_false (by decide) (Nat.not_lt.mpr (h.mp hs))
  · rw [if_neg hs]
    exact iff_of_true rfl (Nat.not_le.mp (mt h.mpr hs))

/-- Testing the mask of a source reads its bit. -/
theorem mask_ne_zero_eq (x : BitVec 32) {k : ℕ} (hk : k < 32) :
    (x &&& 1#32 <<< k != 0) = x.getLsbD k := by
  have h := and_twoPow_eq_zero_iff x k hk
  rw [BitVec.twoPow] at h
  cases hb : x.getLsbD k with
  | false => simpa using h.mpr hb
  | true => simpa [hb] using h

theorem hvVirqIsPending_eq (vcpu : HvVcpu P) {s : BitVec 32} (hs : s.toNat < 32) :
    hvVirqIsPending vcpu s = vcpu.virqPending.getLsbD s.toNat := by
  rw [hvVirqIsPending, if_neg (not_not.mpr ((validate_eq_zero_iff s).mpr hs))]
  exact mask_ne_zero_eq _ hs

theorem hvVirqIsActive_eq (vcpu : HvVcpu P) {s : BitVec 32} (hs : s.toNat < 32) :
    hvVirqIsActive vcpu s = vcpu.virqActive.getLsbD s.toNat := by
  rw [hvVirqIsActive, if_neg (not_not.mpr ((validate_eq_zero_iff s).mpr hs))]
  exact mask_ne_zero_eq _ hs

theorem hvVcpuWake_virqs (vcpu : HvVcpu P) :
    (hvVcpuWake vcpu).virqPending = vcpu.virqPending ∧
      (hvVcpuWake vcpu).virqActive = vcpu.virqActive := by
  rw [hvVcpuWake]
  split <;> exact ⟨rfl, rfl⟩

/-- The loop of a claim finds the lowest pending source. -/
theorem firstPending_eq_some_iff (pending : BitVec 32) (i : ℕ) :
    firstPending pending = some i ↔
      i < 32 ∧ pending.getLsbD i = true ∧ ∀ j < i, pending.getLsbD j = false := by
  rw [firstPending, List.find?_range_eq_some]
  constructor
  · rintro ⟨hb, hi, hj⟩
    rw [List.mem_range] at hi
    rw [mask_ne_zero_eq _ hi] at hb
    refine ⟨hi, hb, fun j hji => ?_⟩
    have := hj j hji
    rwa [mask_ne_zero_eq _ (hji.trans hi), Bool.not_eq_true'] at this
  · rintro ⟨hi, hb, hj⟩
    refine ⟨by rwa [mask_ne_zero_eq _ hi], List.mem_range.mpr hi, fun j hji => ?_⟩
    rw [mask_ne_zero_eq _ (hji.trans hi), hj j hji]
    rfl

inductive VirqCall where
  | raise (virqSource : BitVec 32)
  | claim
  | complete (virq : BitVec 32)

def virqStep (vcpu : HvVcpu P) : VirqCall → ℤ × HvVcpu P
  | .raise s => hvVirqRaise vcpu s
  | .claim => hvVirqClaim vcpu
  | .complete s => hvVirqComplete vcpu s

/-- No source is both pending and active. -/
def VirqsExclusive (vcpu : HvVcpu P) : Prop :=
  ∀ i < 32, ¬ (vcpu.virqPending.getLsbD i = true ∧ vcpu.virqActive.getLsbD i = true)

/-- A raise takes effect on an idle source, and on it alone. -/
theorem hvVirqRaise_idle {vcpu : HvVcpu P} {s : BitVec 32} (hs : s.toNat < 32)
    (hp : vcpu.virqPending.getLsbD s.toNat = false) (ha : vcpu.virqActive.getLsbD s.toNat = false) :
    (hvVirqRaise vcpu s).1 = 0 ∧
      (hvVirqRaise vcpu s).2.virqPending = vcpu.virqPending ||| BitVec.twoPow 32 s.toNat ∧
      (hvVirqRaise vcpu s).2.virqActive = vcpu.virqActive := by
  have hv := hvVcpuWake_virqs
    { vcpu with virqPending := vcpu.virqPending ||| BitVec.twoPow 32 s.toNat }
  rw [hvVirqRaise, if_neg (not_not.mpr ((validate_eq_zero_iff s).mpr hs)),
    if_neg (by rw [hvVirqIsPending_eq _ hs, hvVirqIsActive_eq _ hs, hp, ha]; simp)]
  exact ⟨rfl, hv.1, hv.2⟩

theorem hvVirqRaise_busy {vcpu : HvVcpu P} {s : BitVec 32} (hs : s.toNat < 32)
    (hb : vcpu.virqPending.getLsbD s.toNat = true ∨ vcpu.virqActive.getLsbD s.toNat = true) :
    hvVirqRaise vcpu s = (hvVirqErrBusy, vcpu) := by
  rw [hvVirqRaise, if_neg (not_not.mpr ((validate_eq_zero_iff s).mpr hs)),
    if_pos (by rwa [hvVirqIsPending_eq _ hs, hvVirqIsActive_eq _ hs])]

theorem hvVirqRaise_invalid {vcpu : HvVcpu P} {s : BitVec 32} (hs : ¬ s.toNat < 32) :
    hvVirqRaise vcpu s = (hvVirqErrInvalidVirq, vcpu) := by
  have hv : validate s ≠ 0 := mt (validate_eq_zero_iff s).mp hs
  rw [hvVirqRaise, if_pos hv]
  rw [validate] at hv ⊢
  split at hv
  · rw [if_pos ‹_›]
  · exact absurd rfl hv

theorem hvVirqComplete_active {vcpu : HvVcpu P} {s : BitVec 32} (hs : s.toNat < 32)
    (ha : vcpu.virqActive.getLsbD s.toNat = true) :
    hvVirqComplete vcpu s =
      (0, { vcpu with virqActive := vcpu.virqActive &&& ~~~BitVec.twoPow 32 s.toNat }) := by
  rw [hvVirqComplete, if_neg (not_not.mpr ((validate_eq_zero_iff s).mpr hs)),
    if_neg (by rw [hvVirqIsActive_eq _ hs, ha]; simp)]
  rfl

theorem hvVirqComplete_inactive {vcpu : HvVcpu P} {s : BitVec 32} (hs : s.toNat < 32)
    (ha : vcpu.virqActive.getLsbD s.toNat = false) :
    hvVirqComplete vcpu s = (hvVirqErrNotActive, vcpu) := by
  rw [hvVirqComplete, if_neg (not_not.mpr ((validate_eq_zero_iff s).mpr hs)),
    if_pos (by rw [hvVirqIsActive_eq _ hs, ha]; rfl)]

theorem hvVirqComplete_invalid {vcpu : HvVcpu P} {s : BitVec 32} (hs : ¬ s.toNat < 32) :
    hvVirqComplete vcpu s = (hvVirqErrInvalidVirq, vcpu) := by
  have hv : validate s ≠ 0 := mt (validate_eq_zero_iff s).mp hs
  rw [hvVirqComplete, if_pos hv]
  rw [validate] at hv ⊢
  split at hv
  · rw [if_pos ‹_›]
  · exact absurd rfl hv

theorem hvVirqClaim_none {vcpu : HvVcpu P} (hp : vcpu.virqPending = 0) :
    hvVirqClaim vcpu = (hvVirqErrNoPending, vcpu) := by
  rw [hvVirqClaim, if_pos hp]

/-- A claim moves the lowest pending source to the active word. -/
theorem hvVirqClaim_some {vcpu : HvVcpu P} (hp : vcpu.virqPending ≠ 0) :
    ∃ i, i < 32 ∧ vcpu.virqPending.getLsbD i = true ∧
      (∀ j < i, vcpu.virqPending.getLsbD j = false) ∧
      hvVirqClaim vcpu = ((i : ℤ), { vcpu with
        virqPending := vcpu.virqPending &&& ~~~BitVec.twoPow 32 i
        virqActive := vcpu.virqActive ||| BitVec.twoPow 32 i }) := by
  have hex : ∃ i, firstPending vcpu.virqPending = some i := by
    rw [← Option.ne_none_iff_exists', ne_eq, firstPending, List.find?_eq_none]
    intro hall
    refine hp ((eq_zero_iff_getLsbD _).mpr fun i hi => ?_)
    have := hall i (List.mem_range.mpr hi)
    rwa [mask_ne_zero_eq _ hi, Bool.not_eq_true] at this
  obtain ⟨i, hi⟩ := hex
  obtain ⟨hlt, hb, hlow⟩ := (firstPending_eq_some_iff _ i).mp hi
  refine ⟨i, hlt, hb, hlow, ?_⟩
  rw [hvVirqClaim, if_neg hp, hi]
  rfl

section Counting

def raisedBy (s : BitVec 32) : VirqCall → ℤ → ℕ
  | .raise t, res => if t = s ∧ res = 0 then 1 else 0
  | _, _ => 0

def claimedBy (s : BitVec 32) : VirqCall → ℤ → ℕ
  | .claim, res => if res = s.toNat then 1 else 0
  | _, _ => 0

def completedBy (s : BitVec 32) : VirqCall → ℤ → ℕ
  | .complete t, res => if t = s ∧ res = 0 then 1 else 0
  | _, _ => 0

/-- Sum of a count over the calls of a run and their results. -/
def total (count : VirqCall → ℤ → ℕ) (calls : List VirqCall) (results : List ℤ) : ℕ :=
  ((calls.zip results).map fun p => count p.1 p.2).sum

/-- A call moves at most one source, from idle to pending to active to idle. -/
structure VirqMoves (vcpu : HvVcpu P) (c : VirqCall) (res : ℤ) (vcpu' : HvVcpu P) : Prop where
  exclusive : VirqsExclusive vcpu'
  pending : ∀ s : BitVec 32, s.toNat < 32 →
    (vcpu'.virqPending.getLsbD s.toNat).toNat + claimedBy s c res =
      (vcpu.virqPending.getLsbD s.toNat).toNat + raisedBy s c res
  active : ∀ s : BitVec 32, s.toNat < 32 →
    (vcpu'.virqActive.getLsbD s.toNat).toNat + completedBy s c res =
      (vcpu.virqActive.getLsbD s.toNat).toNat + claimedBy s c res

theorem raise_moves {vcpu : HvVcpu P} (h : VirqsExclusive vcpu) (t : BitVec 32) :
    VirqMoves vcpu (.raise t) (hvVirqRaise vcpu t).1 (hvVirqRaise vcpu t).2 := by
  by_cases ht : t.toNat < 32
  · by_cases hb : vcpu.virqPending.getLsbD t.toNat = true ∨ vcpu.virqActive.getLsbD t.toNat = true
    · rw [hvVirqRaise_busy ht hb]
      exact ⟨h, fun s _ => by simp [raisedBy, claimedBy, hvVirqErrBusy],
        fun s _ => by simp [completedBy, claimedBy]⟩
    · rw [not_or, Bool.not_eq_true, Bool.not_eq_true] at hb
      obtain ⟨hres, hp, ha⟩ := hvVirqRaise_idle ht hb.1 hb.2
      refine ⟨?_, ?_, ?_⟩
      · intro i hi
        rw [hp, ha, getLsbD_or_twoPow _ _ _ ht]
        by_cases hit : t.toNat = i
        · subst hit
          simp [hb.2]
        · simpa [hit] using h i hi
      · intro s hs
        rw [hp, hres, getLsbD_or_twoPow _ _ _ ht]
        by_cases hst : t = s
        · subst hst
          simp [raisedBy, claimedBy, hb.1]
        · have hne : t.toNat ≠ s.toNat := fun e => hst (BitVec.eq_of_toNat_eq e)
          simp [raisedBy, claimedBy, hst, hne]
      · intro s hs
        rw [ha]
        rfl
  · rw [hvVirqRaise_invalid ht]
    exact ⟨h, fun s _ => by simp [raisedBy, claimedBy, hvVirqErrInvalidVirq],
      fun s _ => by simp [completedBy, claimedBy]⟩

theorem complete_moves {vcpu : HvVcpu P} (h : VirqsExclusive vcpu) (t : BitVec 32) :
    VirqMoves vcpu (.complete t) (hvVirqComplete vcpu t).1 (hvVirqComplete vcpu t).2 := by
  by_cases ht : t.toNat < 32
  · cases hb : vcpu.virqActive.getLsbD t.toNat with
    | false =>
      rw [hvVirqComplete_inactive ht hb]
      exact ⟨h, fun s _ => by simp [raisedBy, claimedBy],
        fun s _ => by simp [completedBy, claimedBy, hvVirqErrNotActive]⟩
    | true =>
      rw [hvVirqComplete_active ht hb]
      refine ⟨?_, fun s _ => by simp [raisedBy, claimedBy], ?_⟩
      · intro i hi hboth
        rw [getLsbD_and_not_twoPow _ _ _ ht, Bool.and_eq_true] at hboth
        exact h i hi ⟨hboth.1, hboth.2.1⟩
      · intro s hs
        rw [getLsbD_and_not_twoPow _ _ _ ht]
        by_cases hst : t = s
        · subst hst
          simp [completedBy, claimedBy, hb]
        · have hne : t.toNat ≠ s.toNat := fun e => hst (BitVec.eq_of_toNat_eq e)
          simp [completedBy, claimedBy, hst, hne]
  · rw [hvVirqComplete_invalid ht]
    exact ⟨h, fun s _ => by simp [raisedBy, claimedBy],
      fun s _ => by simp [completedBy, claimedBy, hvVirqErrInvalidVirq]⟩

theorem claim_moves {vcpu : HvVcpu P} (h : VirqsExclusive vcpu) :
    VirqMoves vcpu .claim (hvVirqClaim vcpu).1 (hvVirqClaim vcpu).2 := by
  by_cases hz : vcpu.virqPending = 0
  · rw [hvVirqClaim_none hz]
    have hneg (s : BitVec 32) : (-4 : ℤ) ≠ s.toNat := by omega
    exact ⟨h, fun s _ => by simp [raisedBy, claimedBy, hvVirqErrNoPending, hneg],
      fun s _ => by simp [completedBy, claimedBy, hvVirqErrNoPending, hneg]⟩
  · obtain ⟨i, hi, hp, -, hc⟩ := hvVirqClaim_some hz
    have ha : vcpu.virqActive.getLsbD i = false := by
      rw [← Bool.not_eq_true]
      exact fun ha => h i hi ⟨hp, ha⟩
    rw [hc]
    refine ⟨?_, ?_, ?_⟩
    · intro j hj hboth
      rw [getLsbD_and_not_twoPow _ _ _ hi, getLsbD_or_twoPow _ _ _ hi] at hboth
      by_cases hij : i = j
      · simp [hij] at hboth
      · simp only [hij, ne_eq, not_false_eq_true, decide_true, decide_false, Bool.and_true,
          Bool.or_false] at hboth
        exact h j hj hboth
    · intro s hs
      rw [getLsbD_and_not_twoPow _ _ _ hi]
      by_cases his : i = s.toNat
      · subst his
        simp [raisedBy, claimedBy, hp]
      · simp [raisedBy, claimedBy, his]
    · intro s hs
      rw [getLsbD_or_twoPow _ _ _ hi]
      by_cases his : i = s.toNat
      · subst his
        simp [completedBy, claimedBy, ha]
      · simp [completedBy, claimedBy, his]

theorem virqStep_moves {vcpu : HvVcpu P} (h : VirqsExclusive vcpu) (c : VirqCall) :
    VirqMoves vcpu c (virqStep vcpu c).1 (virqStep vcpu c).2 := by
  cases c with
  | raise t => exact raise_moves h t
  | claim => exact claim_moves h
  | complete t => exact complete_moves h t

/-- Over a run the two words count the calls. -/
theorem run_moves {vcpu : HvVcpu P} (h : VirqsExclusive vcpu) (calls : List VirqCall) :
    let run := exec virqStep vcpu calls
    VirqsExclusive run.2 ∧ ∀ s : BitVec 32, s.toNat < 32 →
      (run.2.virqPending.getLsbD s.toNat).toNat + total (claimedBy s) calls run.1 =
        (vcpu.virqPending.getLsbD s.toNat).toNat + total (raisedBy s) calls run.1 ∧
      (run.2.virqActive.getLsbD s.toNat).toNat + total (completedBy s) calls run.1 =
        (vcpu.virqActive.getLsbD s.toNat).toNat + total (claimedBy s) calls run.1 := by
  induction calls generalizing vcpu with
  | nil => exact ⟨h, fun s _ => ⟨rfl, rfl⟩⟩
  | cons c cs ih =>
    have hstep := virqStep_moves h c
    obtain ⟨hx, hrun⟩ := ih hstep.exclusive
    refine ⟨hx, fun s hs => ?_⟩
    have hp := hstep.pending s hs
    have ha := hstep.active s hs
    obtain ⟨hrp, hra⟩ := hrun s hs
    simp only [exec_cons, total, List.zip_cons_cons, List.map_cons, List.sum_cons] at hrp hra ⊢
    omega

/-- Each interrupt that was raised is claimed once or still pending, each that was claimed is
completed once or still active, and a call succeeds exactly if the state of its source allows it. -/
theorem virqs_neither_lost_nor_duplicated (vcpu : HvVcpu P) (hp : vcpu.virqPending = 0)
    (ha : vcpu.virqActive = 0) (calls : List VirqCall) :
    let run := exec virqStep vcpu calls
    let v := run.2
    (∀ s : BitVec 32, s.toNat < 32 →
      total (raisedBy s) calls run.1 =
        total (claimedBy s) calls run.1 + (v.virqPending.getLsbD s.toNat).toNat ∧
      total (claimedBy s) calls run.1 =
        total (completedBy s) calls run.1 + (v.virqActive.getLsbD s.toNat).toNat ∧
      ¬ (v.virqPending.getLsbD s.toNat = true ∧ v.virqActive.getLsbD s.toNat = true) ∧
      ((hvVirqRaise v s).1 = 0 ↔
        v.virqPending.getLsbD s.toNat = false ∧ v.virqActive.getLsbD s.toNat = false) ∧
      ((hvVirqComplete v s).1 = 0 ↔ v.virqActive.getLsbD s.toNat = true)) ∧
    ((hvVirqClaim v).1 = hvVirqErrNoPending ↔ v.virqPending = 0) ∧
    (v.virqPending ≠ 0 → ∃ i : ℕ, i < 32 ∧ (hvVirqClaim v).1 = i ∧
      v.virqPending.getLsbD i = true ∧ ∀ j < i, v.virqPending.getLsbD j = false) ∧
    ∀ s : BitVec 32, 32 ≤ s.toNat →
      hvVirqRaise v s = (hvVirqErrInvalidVirq, v) ∧
        hvVirqComplete v s = (hvVirqErrInvalidVirq, v) := by
  intro run v
  have hx : VirqsExclusive vcpu := by
    intro i _
    rw [hp]
    simp
  obtain ⟨hexcl, hcount⟩ := run_moves hx calls
  refine ⟨fun s hs => ?_, ?_, fun hne => ?_, fun s hs => ?_⟩
  · obtain ⟨h1, h2⟩ := hcount s hs
    have hp0 : vcpu.virqPending.getLsbD s.toNat = false := by rw [hp]; exact BitVec.getLsbD_zero
    have ha0 : vcpu.virqActive.getLsbD s.toNat = false := by rw [ha]; exact BitVec.getLsbD_zero
    rw [hp0, Bool.toNat_false, Nat.zero_add] at h1
    rw [ha0, Bool.toNat_false, Nat.zero_add] at h2
    refine ⟨h1.symm.trans (Nat.add_comm _ _), h2.symm.trans (Nat.add_comm _ _),
      hexcl s.toNat hs, ?_, ?_⟩
    · by_cases hb : v.virqPending.getLsbD s.toNat = true ∨ v.virqActive.getLsbD s.toNat = true
      · rw [hvVirqRaise_busy hs hb]
        apply iff_of_false (show hvVirqErrBusy ≠ 0 by decide)
        rintro ⟨h1, h2⟩
        simp [h1, h2] at hb
      · rw [not_or, Bool.not_eq_true, Bool.not_eq_true] at hb
        exact iff_of_true (hvVirqRaise_idle hs hb.1 hb.2).1 hb
    · cases hb : v.virqActive.getLsbD s.toNat with
      | false =>
        rw [hvVirqComplete_inactive hs hb]
        exact iff_of_false (show hvVirqErrNotActive ≠ 0 by decide) (by decide)
      | true =>
        rw [hvVirqComplete_active hs hb]
        exact iff_of_true rfl rfl
  · by_cases hz : v.virqPending = 0
    · rw [hvVirqClaim_none hz]
      exact iff_of_true rfl hz
    · obtain ⟨i, -, -, -, hc⟩ := hvVirqClaim_some hz
      rw [hc]
      refine iff_of_false ?_ hz
      change (i : ℤ) ≠ -4
      omega
  · obtain ⟨i, hi, hb, hlow, hc⟩ := hvVirqClaim_some hne
    exact ⟨i, hi, by rw [hc], hb, hlow⟩
  · exact ⟨hvVirqRaise_invalid (by omega), hvVirqComplete_invalid (by omega)⟩

/-- Bit 31 raised twice, claimed and completed. -/
theorem virqs_neither_lost_nor_duplicated_bit_31 :
    let vcpu : HvVcpu .twoSlots :=
      hvVcpuInit ⟨0, none, .idle, initialContext 0 0 0, 7, 7, ⟨false, 0, 0⟩⟩ 0 0 0 0
    let calls := [.raise 31, .raise 31, .raise 32, .claim, .raise 3, .complete 31]
    let run := exec virqStep vcpu calls
    total (raisedBy 31) calls run.1 = 1 ∧ total (completedBy 31) calls run.1 = 1 ∧
      total (raisedBy 31) calls run.1 =
        total (claimedBy 31) calls run.1 + (run.2.virqPending.getLsbD 31).toNat := by
  intro vcpu calls run
  exact ⟨by decide, by decide,
    ((virqs_neither_lost_nor_duplicated vcpu rfl rfl calls).1 31 (by decide)).1⟩

end Counting

end PiPervisor.Hv
