import PiPervisor.Stage2.SharedPools
import PiPervisor.Hv.Boot

/-! # The address space of a guest slot

The regions that the boot gives to a slot, and the pages that the RAM region is
built into. They fit the pool, and they translate the RAM window of the guest to
the memory of its slot.
-/
namespace PiPervisor.Hv
open Stage2 Stage2.AddressSpace Library

variable {P : Platform}

def guestPages (slot : BitVec 32) : List (ℕ × Mapping) :=
  rangePages (guestRamRegion slot).ipaBase.toNat (guestRamRegion slot).paBase.toNat
    (guestRamRegion slot).size.toNat (guestRamRegion slot).attrs

/-- The address space of a slot after the boot. -/
def guestSpace (slot : BitVec 32) : AddressSpace where
  regions := [guestRamRegion slot, guestGuardRegion, guestUartRegion]
  pages := (BudgetedMap.empty.insertAll tableBudget tablesOf (guestPages slot)).2

/-- Bytes of RAM of a guest: its slot without the guard page. -/
def guestRamSize : ℕ := 0xf000

section Regions
variable (slot : BitVec 32)

theorem guestRam_ipa : (guestRamRegion slot).ipaBase.toNat = guestBase := rfl

theorem guestRam_size : (guestRamRegion slot).size.toNat = guestRamSize := rfl

theorem guestRam_pa (i : VmIdx P) :
    (guestRamRegion (BitVec.ofNat 32 i)).paBase.toNat = guestBase + i * guestSlotSize := by
  change ((guestSlotBase (BitVec.ofNat 32 i)).setWidth 64).toNat = _
  rw [BitVec.toNat_setWidth, P.toNat_guestSlotBase i i.isLt]
  have := P.slots_fit
  have hi := i.isLt
  rw [guestBase, guestSlotSize] at *
  omega

theorem guestRam_valid (i : VmIdx P) : (guestRamRegion (BitVec.ofNat 32 i)).Valid := by
  have hpa := guestRam_pa i
  have hfit := P.slots_fit
  have hi := i.isLt
  rw [guestBase, guestSlotSize] at hpa hfit
  refine ⟨?_, ?_, ?_, ?_, fun _ => ?_, fun _ => ?_, by simp [guestRamRegion]⟩
  · rw [guestRam_ipa]
    decide
  · rw [guestRam_size]
    decide
  · rw [guestRam_size]
    decide
  · rw [guestRam_ipa, guestRam_size]
    decide
  · omega
  · simp only [hpa, guestRam_size, guestRamSize]
    omega

theorem guestGuard_valid : guestGuardRegion.Valid :=
  ⟨by decide, by decide, by decide, by decide, nofun, nofun, nofun⟩

theorem guestUart_valid : guestUartRegion.Valid :=
  ⟨by decide, by decide, by decide, by decide, nofun, nofun, fun _ => by decide⟩

theorem span_disjoint {a r : HvVmRegion} (h : a.ipaBase.toNat + a.size.toNat ≤ r.ipaBase.toNat) :
    Disjoint a.span r.span := by
  rw [Set.disjoint_left]
  rintro x ⟨-, hx⟩ ⟨hx', -⟩
  omega

theorem guestRam_below {r : HvVmRegion} (h : 0x2f000 ≤ r.ipaBase.toNat) :
    Disjoint (guestRamRegion slot).span r.span := by
  apply span_disjoint
  rw [guestRam_ipa, guestRam_size, guestBase, guestRamSize]
  omega

end Regions

section Setup
variable (i : VmIdx P)

theorem addRegion_ok {a : AddressSpace} {r : HvVmRegion} (hr : r.Valid)
    (hlen : a.regions.length < hvMaxVmRegions) (hd : ∀ x ∈ a.regions, Disjoint x.span r.span) :
    a.addRegion r = (hvVmOk, { a with regions := a.regions ++ [r] }) := by
  have hno : ¬ ∃ x ∈ a.regions, ¬ Disjoint x.span r.span := fun ⟨x, hx, hnd⟩ => hnd (hd x hx)
  rw [AddressSpace.addRegion, if_neg (not_not.mpr hr), if_neg (by omega), if_neg hno]

theorem addRegion_ram : AddressSpace.empty.addRegion (guestRamRegion (BitVec.ofNat 32 i)) =
    (hvVmOk, ⟨[guestRamRegion (BitVec.ofNat 32 i)], BudgetedMap.empty⟩) :=
  addRegion_ok (guestRam_valid i) (by decide) nofun

theorem addRegion_guard :
    AddressSpace.addRegion ⟨[guestRamRegion (BitVec.ofNat 32 i)], BudgetedMap.empty⟩
        guestGuardRegion =
      (hvVmOk, ⟨[guestRamRegion (BitVec.ofNat 32 i), guestGuardRegion], BudgetedMap.empty⟩) := by
  apply addRegion_ok guestGuard_valid (by simp [hvMaxVmRegions])
  intro x hx
  rw [List.mem_singleton.mp hx]
  exact guestRam_below _ (by decide)

theorem addRegion_uart :
    AddressSpace.addRegion
        ⟨[guestRamRegion (BitVec.ofNat 32 i), guestGuardRegion], BudgetedMap.empty⟩
        guestUartRegion =
      (hvVmOk, ⟨(guestSpace (BitVec.ofNat 32 i)).regions, BudgetedMap.empty⟩) := by
  apply addRegion_ok guestUart_valid (by simp [hvMaxVmRegions])
  intro x hx
  rcases List.mem_cons.mp hx with rfl | hx
  · exact guestRam_below _ (by decide)
  · rw [List.mem_singleton.mp hx]
    exact span_disjoint (by decide)

theorem guestPages_eq (slot : BitVec 32) : guestPages slot = (List.range 15).map fun k =>
    (32 + k, ⟨(guestRamRegion slot).paBase.toNat / 4096 + k, (guestRamRegion slot).attrs⟩) := by
  rw [guestPages, guestRam_ipa, guestRam_size]
  rfl

/-- The fifteen pages share the two tables that the pool must provide. -/
theorem guestPages_inserted (slot : BitVec 32) :
    ((BudgetedMap.empty : PageMap).insertAll tableBudget tablesOf (guestPages slot)).1 =
      .inserted := by
  have hkeys : (guestPages slot).map Prod.fst = (List.range 15).map (32 + ·) := by
    rw [guestPages_eq, List.map_map]
    rfl
  rw [BudgetedMap.insertAll_inserted_iff _ _ _ _ (by decide), hkeys]
  refine ⟨by decide, fun _ _ => rfl, by decide⟩

theorem build_guest :
    AddressSpace.build ⟨(guestSpace (BitVec.ofNat 32 i)).regions, BudgetedMap.empty⟩
        (guestSpace (BitVec.ofNat 32 i)).regions = (hvVmOk, guestSpace (BitVec.ofNat 32 i)) := by
  have hv := guestRam_valid i
  have hgood : ¬ BadRange (guestRamRegion (BitVec.ofNat 32 i)).ipaBase.toNat
      (guestRamRegion (BitVec.ofNat 32 i)).paBase.toNat
      (guestRamRegion (BitVec.ofNat 32 i)).size.toNat := by
    have h1 := hv.ipa_aligned
    have h2 := hv.size_aligned
    have h3 := hv.size_pos
    have h4 := hv.ipa_fits
    have h5 := hv.pa_aligned rfl
    have h6 := hv.pa_fits rfl
    rw [BadRange]
    omega
  have hbacked : Backed (guestSpace (BitVec.ofNat 32 i)).regions
      (guestRamRegion (BitVec.ofNat 32 i)).ipaBase.toNat
      (guestRamRegion (BitVec.ofNat 32 i)).paBase.toNat
      (guestRamRegion (BitVec.ofNat 32 i)).size.toNat :=
    ⟨_, List.mem_cons_self, rfl, le_rfl, le_rfl, by rw [Nat.sub_self, Nat.add_zero]⟩
  have hmap : AddressSpace.mapRegion
      ⟨(guestSpace (BitVec.ofNat 32 i)).regions, BudgetedMap.empty⟩
      (guestRamRegion (BitVec.ofNat 32 i)).ipaBase.toNat
      (guestRamRegion (BitVec.ofNat 32 i)).paBase.toNat
      (guestRamRegion (BitVec.ofNat 32 i)).size.toNat
      (guestRamRegion (BitVec.ofNat 32 i)).attrs =
        (hvVmOk, guestSpace (BitVec.ofNat 32 i)) := by
    rw [AddressSpace.mapRegion, if_neg hgood, if_pos hbacked]
    refine Prod.ext ?_ rfl
    exact congrArg outcomeCode (guestPages_inserted (BitVec.ofNat 32 i))
  change AddressSpace.build _ [guestRamRegion (BitVec.ofNat 32 i), guestGuardRegion,
    guestUartRegion] = _
  rw [AddressSpace.build, if_neg (by rw [not_not]; rfl)]
  dsimp only
  rw [hmap, if_neg (by simp [hvVmOk, hvStage2Ok])]
  rfl

end Setup

section Translate

theorem guestSpace_sound (i : VmIdx P) : (guestSpace (BitVec.ofNat 32 i)).Sound := by
  have h := (((Sound.empty.addRegion (guestRamRegion (BitVec.ofNat 32 i))).addRegion
    guestGuardRegion).addRegion guestUartRegion)
  rw [addRegion_ram] at h
  dsimp only at h
  rw [addRegion_guard] at h
  dsimp only at h
  rw [addRegion_uart] at h
  have hb := h.build (guestSpace (BitVec.ofNat 32 i)).regions
  rw [build_guest] at hb
  exact hb

/-- The page map of a slot: its fifteen RAM pages, in order. -/
theorem guestSpace_entry (i : VmIdx P) (v : ℕ) :
    (guestSpace (BitVec.ofNat 32 i)).pages.entry v =
      if 32 ≤ v ∧ v < 47 then
        some ⟨32 + i * 16 + (v - 32), (guestRamRegion (BitVec.ofNat 32 i)).attrs⟩
      else none := by
  obtain ⟨hin, hout⟩ := BudgetedMap.insertAll_entry_of_inserted tableBudget tablesOf
    (guestPages (BitVec.ofNat 32 i)) BudgetedMap.empty (by decide) (guestPages_inserted _)
  have hpa : (guestRamRegion (BitVec.ofNat 32 i)).paBase.toNat / 4096 = 32 + i * 16 := by
    rw [guestRam_pa, guestBase, guestSlotSize]
    omega
  have hmem (k : ℕ) (hk : k < 15) : (32 + k, (⟨32 + i * 16 + k,
      (guestRamRegion (BitVec.ofNat 32 i)).attrs⟩ : Mapping)) ∈
        guestPages (BitVec.ofNat 32 i) := by
    rw [guestPages_eq, hpa]
    exact List.mem_map.mpr ⟨k, List.mem_range.mpr hk, rfl⟩
  by_cases hv : 32 ≤ v ∧ v < 47
  · rw [if_pos hv]
    have h := hin _ (hmem (v - 32) (by omega))
    rwa [Nat.add_sub_cancel' hv.1] at h
  · rw [if_neg hv]
    refine hout v fun hm => hv ?_
    rw [guestPages_eq, List.map_map] at hm
    obtain ⟨k, hk, rfl⟩ := List.mem_map.mp hm
    rw [List.mem_range] at hk
    change 32 ≤ 32 + k ∧ 32 + k < 47
    omega

/-- The window `[GUEST_BASE, GUEST_BASE + RAM)` is the start of the slot's memory. -/
theorem guestSpace_translate_eq_ok_iff (i : VmIdx P) (x p : ℕ) :
    (guestSpace (BitVec.ofNat 32 i)).translate x = .ok p ↔
      (guestBase ≤ x ∧ x < guestBase + guestRamSize) ∧
        p = guestBase + i * guestSlotSize + (x - guestBase) := by
  rw [AddressSpace.translate, guestSpace_entry]
  simp only [guestBase, guestRamSize, guestSlotSize]
  by_cases hx : 2 ^ 32 ≤ x
  · rw [if_pos hx]
    exact iff_of_false (by simp) (by omega)
  · rw [if_neg hx]
    by_cases hv : 32 ≤ x / 4096 ∧ x / 4096 < 47
    · rw [if_pos hv]
      dsimp only
      rw [Except.ok.injEq]
      omega
    · rw [if_neg hv]
      exact iff_of_false (by simp) (by omega)

end Translate

end PiPervisor.Hv
