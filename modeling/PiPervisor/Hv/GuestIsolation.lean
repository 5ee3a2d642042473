import PiPervisor.Hv.Closed
import PiPervisor.Hv.Runs

/-! # Guests are isolated in memory

After the boot each guest reaches exactly the RAM of its own slot, whatever
exceptions follow. The slots are disjoint, and all of them lie above the image
of the hypervisor.
-/
namespace PiPervisor.Hv
open Stage2

variable {P : Platform}

/-- What decides every translation. -/
def Core.tables (m : Core P) : (VmIdx P → HvVm) × TablePools :=
  (m.scheduler.vm, m.stage2TablePools)

/-- No exception handler touches the VMs or the memory of their tables. -/
theorem closed_tables (tables : (VmIdx P → HvVm) × TablePools) :
    Closed fun m : Core P => m.tables = tables where
  setVcpu _ _ _ h := h
  select _ _ _ h := h
  setFrame _ _ h := h
  setHcr _ _ h := h
  restore _ _ _ h := h
  activate _ _ h := h

section Exceptions

/-- The state after any exceptions at all, whatever their handlers return. -/
def handleExceptions (h : Hyp P) (ts : List Trap) : Except HypFault (Hyp P) :=
  ts.foldlM (fun h t => Prod.snd <$> hypHandleException (takeTrap h t)) h

theorem handleExceptions_tables {h h' : Hyp P} {ts : List Trap}
    (hr : handleExceptions h ts = .ok h') : h'.tables = h.tables := by
  induction ts generalizing h with
  | nil =>
    cases hr
    rfl
  | cons t ts ih =>
    rw [handleExceptions, List.foldlM_cons] at hr
    rcases he : hypHandleException (takeTrap h t) with e | ⟨a, h1⟩
    · rw [he] at hr
      cases hr
    · rw [he] at hr
      exact (ih hr).trans ((closed_tables _).hypHandleException (h := takeTrap h t) rfl a h1 he)

end Exceptions

/-- Where an access of the guest in slot `i` to the address `x` ends up. -/
def guestTranslate (h : Hyp P) (i : VmIdx P) (x : BitVec 32) : Except ℤ HvPa :=
  hvStage2Translate (h.scheduler.vm i) h.stage2TablePools (x.setWidth 64)

structure Isolated (h : Hyp P) : Prop where
  window : ∀ i x, (∃ p, guestTranslate h i x = .ok p) ↔
    guestBase ≤ x.toNat ∧ x.toNat < guestBase + guestSlotSize - hvStage2PageSize.toNat
  slot : ∀ i x p, guestTranslate h i x = .ok p →
    p.toNat = (guestSlotBase (BitVec.ofNat 32 i)).toNat + (x.toNat - guestBase)
  disjoint : ∀ i j, i ≠ j → ∀ x y p q, guestTranslate h i x = .ok p →
    guestTranslate h j y = .ok q → p ≠ q
  above : ∀ i x p, guestTranslate h i x = .ok p → guestBase ≤ p.toNat

/-- The translation of a slot, in one formula. -/
theorem VmsBooted.guestTranslate_eq_ok_iff {h : Hyp P} (hv : VmsBooted h.toCore) (i : VmIdx P)
    (x : BitVec 32) (p : HvPa) :
    guestTranslate h i x = .ok p ↔ (guestBase ≤ x.toNat ∧ x.toNat < guestBase + guestRamSize) ∧
      p.toNat = guestBase + i * guestSlotSize + (x.toNat - guestBase) := by
  obtain ⟨href, -⟩ := hv i
  have htrans : (guestTranslate h i x).map BitVec.toNat =
      (guestSpace (BitVec.ofNat 32 i)).translate (x.setWidth 64).toNat :=
    href.refines.translate href.sound (x.setWidth 64)
  have hx : (x.setWidth 64).toNat = x.toNat := by
    rw [BitVec.toNat_setWidth, Nat.mod_eq_of_lt (x.isLt.trans (by decide))]
  rw [← guestSpace_translate_eq_ok_iff i x.toNat p.toNat, ← hx, ← htrans]
  constructor
  · intro hp
    rw [hp]
    rfl
  · rcases guestTranslate h i x with e | q
    · intro hp
      cases hp
    · intro hp
      exact congrArg Except.ok (BitVec.eq_of_toNat_eq (Except.ok.inj hp))

theorem VmsBooted.isolated {h : Hyp P} (hv : VmsBooted h.toCore) : Isolated h := by
  have hiff := hv.guestTranslate_eq_ok_iff
  refine ⟨fun i x => ?_, fun i x p hp => ?_, fun i j hij x y p q hp hq => ?_, fun i x p hp => ?_⟩
  · have hram : guestBase + guestSlotSize - hvStage2PageSize.toNat = guestBase + guestRamSize := rfl
    rw [hram]
    constructor
    · rintro ⟨p, hp⟩
      exact ((hiff i x p).mp hp).1
    · intro hx
      have hfit := P.slots_fit
      have hi := i.isLt
      refine ⟨BitVec.ofNat 64 (guestBase + i * guestSlotSize + (x.toNat - guestBase)),
        (hiff i x _).mpr ⟨hx, ?_⟩⟩
      rw [BitVec.toNat_ofNat]
      rw [guestBase, guestRamSize] at hx
      rw [guestBase, guestSlotSize] at *
      omega
  · rw [P.toNat_guestSlotBase i i.isLt]
    exact ((hiff i x p).mp hp).2
  · obtain ⟨hx, hpn⟩ := (hiff i x p).mp hp
    obtain ⟨hy, hqn⟩ := (hiff j y q).mp hq
    have hne : i.val ≠ j.val := fun he => hij (Fin.ext he)
    intro he
    rw [he, hqn] at hpn
    rw [guestBase, guestRamSize] at hx hy
    rw [guestBase, guestSlotSize] at hpn
    omega
  · rw [((hiff i x p).mp hp).2]
    exact Nat.le_add_right_of_le (Nat.le_add_right _ _)

/-- The initialisation gives each guest its own slot of memory and nothing else, and no exception
changes that. -/
theorem guests_isolated (P : Platform) :
    (∀ h : Hyp P, ∃ h', hvSchedulerInit h = .ok h' ∧ Isolated h') ∧
      ∀ b : Boot P, ∃ h, b.main = .ok h ∧ Isolated h ∧
        ∀ ts h', handleExceptions h ts = .ok h' → Isolated h' := by
  refine ⟨fun h => ?_, fun b => ?_⟩
  · obtain ⟨h', hr, hready⟩ := hvSchedulerInit_spec h
    exact ⟨h', hr, hready.vms.isolated⟩
  · obtain ⟨h, hr, -, hvms, -⟩ := b.main_spec
    refine ⟨h, hr, hvms.isolated, fun ts h' hts => ?_⟩
    have htables := handleExceptions_tables hts
    exact (hvms.keepsTables (congrArg Prod.fst htables) (congrArg Prod.snd htables)).isolated

theorem guests_isolated_after_yield : ∃ h h', (twoGuests 0).main = .ok h ∧
    handleExceptions h [hypercallTrap hypercallYield 0] = .ok h' ∧ Isolated h' := by
  obtain ⟨h, hr, -, hkeep⟩ := (guests_isolated .twoSlots).2 (twoGuests 0)
  have heval : ((twoGuests 0).main.bind fun h =>
      handleExceptions h [hypercallTrap hypercallYield 0]).isOk = true := by
    decide +kernel
  rw [hr] at heval
  change (handleExceptions h [hypercallTrap hypercallYield 0]).isOk = true at heval
  rcases hrun : handleExceptions h [hypercallTrap hypercallYield 0] with e | h'
  · rw [hrun] at heval
    cases heval
  · exact ⟨h, h', hr, hrun, hkeep _ h' hrun⟩

end PiPervisor.Hv
