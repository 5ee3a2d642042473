import PiPervisor.Stage2.Refinement

/-! # Each call on a VM agrees with its abstract call

The checks of a call are decided on 64-bit words and the abstract call on
natural numbers; the region table invariant makes the two agree.
-/
namespace PiPervisor.Stage2
open Library Library.Memory AddressSpace

variable {P : Platform} {vm : HvVm} {m : TablePools} {a : AddressSpace}
  {regions : List HvVmRegion} {r : HvVmRegion} {ipa pa size : BitVec 64}

theorem RegionTable.find_eq_some_iff (h : RegionTable regions) :
    regions.find? (hvVmRegionContains · ipa) = some r ↔ r ∈ regions ∧ ipa.toNat ∈ r.span := by
  constructor
  · intro hf
    have hc := List.find?_some hf
    exact ⟨List.mem_of_find?_eq_some hf, (hvVmRegionContains_iff r ipa).mp hc⟩
  · rintro ⟨hr, hx⟩
    have hc := (hvVmRegionContains_iff r ipa).mpr hx
    rw [← List.head?_filter, h.filter_contains hr hc]
    rfl

theorem find_eq_none_iff :
    regions.find? (hvVmRegionContains · ipa) = none ↔ ¬ ∃ r ∈ regions, ipa.toNat ∈ r.span := by
  rw [List.find?_eq_none]
  simp only [hvVmRegionContains_iff, not_exists, not_and]

theorem stage2RegionContainsMapping_iff (hr : r.Valid) (hs : 0 < size.toNat) :
    stage2RegionContainsMapping (some r) ipa pa size = true ↔
      r.type = .ram ∧ r.ipaBase.toNat ≤ ipa.toNat ∧
        ipa.toNat + size.toNat ≤ r.ipaBase.toNat + r.size.toNat ∧
        pa.toNat = r.paBase.toNat + (ipa.toNat - r.ipaBase.toNat) := by
  have hz : size = 0 ↔ size.toNat = 0 := by simp [← BitVec.toNat_inj]
  have hfit := hr.ipa_fits
  have hpfit := hr.pa_fits
  have hib := ipa.isLt
  have hsz := size.isLt
  rw [stage2RegionContainsMapping]
  by_cases hram : r.type = .ram
  · have hpf := hpfit hram
    have hd (hle : r.ipaBase.toNat ≤ ipa.toNat) :
        (ipa - r.ipaBase).toNat = ipa.toNat - r.ipaBase.toNat := by
      rw [BitVec.toNat_sub]
      omega
    have hd' (hle : size.toNat ≤ r.size.toNat) :
        (r.size - size).toNat = r.size.toNat - size.toNat := by
      rw [BitVec.toNat_sub]
      omega
    simp only [hram, ne_eq, not_true_eq_false, false_or, hz, gt_iff_lt, BitVec.lt_def, true_and]
    by_cases hle : r.ipaBase.toNat ≤ ipa.toNat
    · by_cases hsle : size.toNat ≤ r.size.toNat
      · rw [hd hle, hd' hsle]
        split
        · simp only [Bool.false_eq_true, false_iff]
          omega
        · rw [beq_iff_eq, ← BitVec.toNat_inj, BitVec.toNat_add, hd hle]
          omega
      · rw [if_pos (by omega)]
        simp only [Bool.false_eq_true, false_iff]
        omega
    · rw [if_pos (by omega)]
      simp only [Bool.false_eq_true, false_iff]
      omega
  · rw [if_pos (.inl hram)]
    simp [hram]

/-- The policy check accepts exactly the backed ranges. -/
theorem containsMapping_iff_backed (ipa pa : BitVec 64) (h : RegionTable regions)
    (hs : 0 < size.toNat) :
    stage2RegionContainsMapping (regions.find? (hvVmRegionContains · ipa)) ipa pa size = true ↔
      Backed regions ipa.toNat pa.toNat size.toNat := by
  constructor
  · intro hc
    rcases hf : regions.find? (hvVmRegionContains · ipa) with - | r
    · rw [hf] at hc
      exact absurd hc (by simp [stage2RegionContainsMapping])
    · rw [hf] at hc
      have hr := (h.find_eq_some_iff.mp hf).1
      exact ⟨r, hr, (stage2RegionContainsMapping_iff (h.valid r hr) hs).mp hc⟩
  · rintro ⟨r, hr, hb⟩
    have hx : ipa.toNat ∈ r.span := ⟨hb.2.1, by have := hb.2.2.1; omega⟩
    rw [h.find_eq_some_iff.mpr ⟨hr, hx⟩]
    exact (stage2RegionContainsMapping_iff (h.valid r hr) hs).mpr hb

theorem backed_fits (h : RegionTable regions) {i p s : ℕ}
    (hb : Backed regions i p s) : i + s ≤ 2 ^ 32 ∧ p + s ≤ 2 ^ 32 := by
  obtain ⟨r, hr, hram, h1, h2, h3⟩ := hb
  have := (h.valid r hr).ipa_fits
  have := (h.valid r hr).pa_fits hram
  omega

theorem stage2RangeEnd_eq_none_iff (base size : BitVec 64) :
    stage2RangeEnd base size = none ↔ size.toNat = 0 ∨ 2 ^ 64 < base.toNat + size.toNat := by
  have he := stage2RangeEnd_eq_some_iff base size
  rw [← not_iff_not, ← ne_eq, Option.ne_none_iff_exists']
  constructor
  · rintro ⟨e, h⟩
    have := (he e).mp h
    omega
  · intro h
    refine ⟨BitVec.ofNat 64 (base.toNat + size.toNat - 1), (he _).mpr ⟨by omega, by omega, ?_⟩⟩
    rw [BitVec.toNat_ofNat]
    omega

theorem hvStage2MapRegion_bad (vm : HvVm) (m : TablePools) (attrs : BitVec 64)
    (h : BadRange ipa.toNat pa.toNat size.toNat) :
    hvStage2MapRegion vm m ipa pa size attrs = (hvStage2ErrInval, vm, m) := by
  have hz : size = 0 ↔ size.toNat = 0 := by simp [← BitVec.toNat_inj]
  rw [hvStage2MapRegion]
  simp only [Bool.not_eq_true', ← Bool.not_eq_true, stage2Aligned_iff, hz]
  split
  · rfl
  · rename_i hal
    have hend : stage2RangeEnd ipa size = none ∨ stage2RangeEnd pa size = none := by
      rw [stage2RangeEnd_eq_none_iff, stage2RangeEnd_eq_none_iff]
      unfold BadRange at h
      tauto
    rcases hend with he | he
    · rw [he]
    · rw [he]
      cases stage2RangeEnd ipa size <;> rfl

open scoped Classical in
theorem hvStage2MapRegion_good (m : TablePools) (attrs : BitVec 64)
    (hr : RegionTable vm.regions) (h : ¬ BadRange ipa.toNat pa.toNat size.toNat) :
    hvStage2MapRegion vm m ipa pa size attrs =
      if Backed vm.regions ipa.toNat pa.toNat size.toNat then
        stage2MapPages vm m ipa pa attrs (mapOffsets size)
      else (hvStage2ErrRange, vm, m) := by
  have hz : size = 0 ↔ size.toNat = 0 := by simp [← BitVec.toNat_inj]
  simp only [AddressSpace.BadRange, not_or, not_not, not_lt] at h
  obtain ⟨h1, h2, h3, h4, h5, h6⟩ := h
  have hpos : 0 < size.toNat := Nat.pos_of_ne_zero h4
  obtain ⟨e1, he1⟩ : ∃ e, stage2RangeEnd ipa size = some e := by
    rw [← Option.ne_none_iff_exists', ne_eq, stage2RangeEnd_eq_none_iff]
    omega
  obtain ⟨e2, he2⟩ : ∃ e, stage2RangeEnd pa size = some e := by
    rw [← Option.ne_none_iff_exists', ne_eq, stage2RangeEnd_eq_none_iff]
    omega
  have hi := (stage2RangeEnd_eq_some_iff ipa size e1).mp he1
  have hp := (stage2RangeEnd_eq_some_iff pa size e2).mp he2
  have hb := containsMapping_iff_backed ipa pa hr hpos
  rw [hvStage2MapRegion, he1, he2]
  simp only [Bool.not_eq_true', ← Bool.not_eq_true, stage2Aligned_iff, hz, hvVmFindRegion, hb,
    stage2FitsV132bit_iff, h1, h2, h3, h4, not_true_eq_false, or_self, if_false]
  by_cases hback : Backed vm.regions ipa.toNat pa.toNat size.toNat
  · have hfit := backed_fits hr hback
    rw [if_neg (by omega), if_neg (not_not.mpr hback), if_pos hback]
  · rw [if_neg hback, if_pos hback, ite_self]

theorem Refines.mapRegion (h : Refines P vm m a) (hr : RegionTable a.regions)
    (ipa pa size : BitVec 64) (attrs : BitVec 64) :
    Agrees P vm m (hvStage2MapRegion vm m ipa pa size attrs)
      (a.mapRegion ipa.toNat pa.toNat size.toNat attrs) := by
  by_cases hbad : BadRange ipa.toNat pa.toNat size.toNat
  · rw [hvStage2MapRegion_bad vm m attrs hbad, AddressSpace.mapRegion, if_pos hbad]
    exact h.agrees _
  · rw [hvStage2MapRegion_good m attrs (h.regions ▸ hr) hbad, AddressSpace.mapRegion, if_neg hbad,
      h.regions]
    by_cases hback : Backed a.regions ipa.toNat pa.toNat size.toNat
    · obtain ⟨hi32, hp32⟩ := backed_fits hr hback
      simp only [AddressSpace.BadRange, not_or, not_not, not_lt] at hbad
      rw [if_pos hback, if_pos hback, mapOffsets]
      have hn : (size.toNat + 4095) / 4096 = size.toNat / 4096 := by omega
      rw [hn]
      apply h.mapPages attrs _ hbad.2.1
      intro k hk
      rw [List.mem_range] at hk
      omega
    · rw [if_neg hback, if_neg hback]
      exact h.agrees _

/-- The unmapping call's second range check never fires on a stored region. -/
theorem unmap_in_range (hr : r.Valid) (ha : ipa.toNat % 4096 = 0) (hx : ipa.toNat ∈ r.span) :
    ¬ (ipa < r.ipaBase ∨ ipa - r.ipaBase > r.size - hvStage2PageSize) := by
  have h1 := hr.ipa_aligned
  have h2 := hr.size_aligned
  have h3 := hr.size_pos
  have h4 := hr.ipa_fits
  have h5 := hx.1
  have h6 := hx.2
  have hd : (ipa - r.ipaBase).toNat = ipa.toNat - r.ipaBase.toNat := by
    rw [BitVec.toNat_sub]
    omega
  have hs : (r.size - hvStage2PageSize).toNat = r.size.toNat - 4096 := by
    rw [BitVec.toNat_sub]
    change (2 ^ 64 - 4096 + r.size.toNat) % 2 ^ 64 = _
    omega
  rw [BitVec.lt_def, gt_iff_lt, BitVec.lt_def, hd, hs]
  omega

theorem Refines.unmapPage (h : Refines P vm m a) (hr : RegionTable a.regions) (ipa : BitVec 64) :
    Agrees P vm m (hvStage2UnmapPage vm m ipa) (a.unmapPage ipa.toNat) := by
  rw [hvStage2UnmapPage, AddressSpace.unmapPage]
  simp only [Bool.not_eq_true', ← Bool.not_eq_true, stage2Aligned_iff]
  by_cases ha : ipa.toNat % 4096 = 0
  · rw [if_neg (not_not.mpr ha), if_neg (not_not.mpr ha)]
    have hfind : hvVmFindRegion vm ipa = a.regions.find? (hvVmRegionContains · ipa) := by
      rw [hvVmFindRegion, h.regions]
    rcases hf : a.regions.find? (hvVmRegionContains · ipa) with - | r
    · rw [hfind, hf, if_neg (find_eq_none_iff.mp hf)]
      exact h.agrees _
    · obtain ⟨hmem, hx⟩ := hr.find_eq_some_iff.mp hf
      have hv : ipa.toNat / 4096 < 2 ^ 20 := by
        have := (hr.valid r hmem).ipa_fits
        have := hx.2
        omega
      rw [hfind, hf]
      dsimp only
      rw [if_neg (unmap_in_range (hr.valid r hmem) ha hx), if_pos ⟨r, hmem, hx⟩]
      obtain ⟨hreg, t, ht⟩ := h
      rcases ht.walk ipa with ⟨n, hw, hn⟩ | ⟨hw, hn⟩
      · rw [hw]
        exact ⟨rfl, rfl, rfl, ⟨hreg, _, ht.setLeaf hv hn none⟩, .update _ _ (ht.slot_mem _ hn)⟩
      · rw [hw]
        have hsame : a.pages.erase (ipa.toNat / 4096) = a.pages := by
          rw [BudgetedMap.erase, ← ht.entry_none hv hn, Function.update_eq_self]
        rw [hsame]
        exact ⟨rfl, rfl, rfl, ⟨hreg, t, ht⟩, .refl _ _⟩
  · rw [if_pos ha, if_pos ha]
    exact h.agrees _

open scoped Classical in
/-- What adding a region does to a VM whose stored regions are valid and disjoint. -/
theorem hvVmAddRegion_eq (hr : RegionTable vm.regions) (r : HvVmRegion) :
    hvVmAddRegion vm r =
      if ¬ r.Valid then (hvVmErrInval, vm)
      else if hvMaxVmRegions ≤ vm.regions.length then (hvVmErrFull, vm)
      else if ∃ b ∈ vm.regions, ¬ Disjoint b.span r.span then (hvVmErrOverlap, vm)
      else (hvVmOk, { vm with regions := vm.regions ++ [r] }) := by
  have hvalid := hvVmRegionValid_iff r
  by_cases hv : r.Valid
  · have hany : vm.regions.any (hvVmRegionsOverlap · r) = true ↔
        ∃ b ∈ vm.regions, ¬ Disjoint b.span r.span := by
      rw [List.any_eq_true]
      refine exists_congr fun b => and_congr_right fun hb => ?_
      rw [← hvVmRegionsOverlap_iff (hr.valid b hb) hv, Bool.not_eq_false]
    rw [hvVmAddRegion, if_neg (by simp [hvalid, hv]), if_neg (not_not.mpr hv)]
    simp only [hany, ge_iff_le]
  · rw [hvVmAddRegion, if_pos (by simpa using mt hvalid.mp hv), if_pos hv]

theorem Refines.addRegion (h : Refines P vm m a) (hr : RegionTable a.regions) (r : HvVmRegion) :
    Agrees P vm m ((hvVmAddRegion vm r).1, (hvVmAddRegion vm r).2, m) (a.addRegion r) := by
  rw [hvVmAddRegion_eq (h.regions ▸ hr), AddressSpace.addRegion, h.regions]
  split_ifs
  · exact h.agrees _
  · exact h.agrees _
  · obtain ⟨hreg, t, ht⟩ := h
    have hh := ht.holds
    refine ⟨rfl, rfl, rfl, ⟨rfl, t, ⟨?_, ht.nodes, ht.leaf⟩⟩, .refl _ _⟩
    exact ⟨hh.id_lt, hh.rootVa, hh.poolVa, hh.rootPa, hh.poolPa, hh.poolPages, hh.poolUsed,
      hh.repr⟩
  · exact h.agrees _

theorem Refines.build (h : Refines P vm m a) (hr : RegionTable a.regions) (rs : List HvVmRegion) :
    Agrees P vm m (buildRegions vm m rs) (a.build rs) := by
  induction rs generalizing vm m a with
  | nil => exact h.agrees _
  | cons r rs ih =>
    have hm := h.mapRegion hr r.ipaBase r.paBase r.size r.attrs
    rw [buildRegions, AddressSpace.build]
    by_cases hram : r.type = .ram
    · rw [if_neg (not_not.mpr hram), if_neg (not_not.mpr hram)]
      dsimp only
      rw [← hm.code]
      split
      · exact hm
      · exact hm.trans (ih hm.refines (by rw [mapRegion_regions]; exact hr))
    · rw [if_pos hram, if_pos hram]
      exact ih h hr

/-- One call on an initialised VM. -/
def vmCall (vm : HvVm) (m : TablePools) : VmCall → ℤ × HvVm × TablePools
  | .addRegion r => ((hvVmAddRegion vm r).1, (hvVmAddRegion vm r).2, m)
  | .mapRegion ipa pa size attrs => hvStage2MapRegion vm m ipa pa size attrs
  | .unmapPage ipa => hvStage2UnmapPage vm m ipa
  | .buildStage2 => hvVmBuildStage2 vm m

theorem Refines.call (h : Refines P vm m a) (hs : a.Sound) (c : VmCall) :
    Agrees P vm m (vmCall vm m c) (a.step c) := by
  cases c with
  | addRegion r => exact h.addRegion hs.table r
  | mapRegion ipa pa size attrs => exact h.mapRegion hs.table ipa pa size attrs
  | unmapPage ipa => exact h.unmapPage hs.table ipa
  | buildStage2 =>
    change Agrees P vm m (buildRegions vm m vm.regions) _
    rw [h.regions]
    exact h.build hs.table _

/-- Initialisation succeeds for an id in range and gives the empty address space. -/
theorem hvVmInit_agrees (P : Platform) (vm : HvVm) (m : TablePools) {id : ℕ} (vmid : BitVec 32)
    (hid : id < P.hvMaxVms) :
    (hvVmInit P vm m id vmid).1 = hvStage2Ok ∧ (hvVmInit P vm m id vmid).2.1.id = id ∧
      (hvVmInit P vm m id vmid).2.1.vmid = vmid ∧
      Refines P (hvVmInit P vm m id vmid).2.1 (hvVmInit P vm m id vmid).2.2 AddressSpace.empty ∧
      SameOutside (ownPool id) m (hvVmInit P vm m id vmid).2.2 := by
  rw [hvVmInit, if_neg (by omega)]
  obtain ⟨s, m', he, hh, hf⟩ := hvStage2Init_eq (P := P)
    { id := id, vmid := vmid, regions := [], stage2 := ⟨0, 0, 0, 0, 0, 0⟩ } m hid
  dsimp only
  rw [he]
  exact ⟨rfl, rfl, rfl, ⟨rfl, _, ⟨hh, rfl, fun v _ => rfl⟩⟩, hf⟩

/-- Initialisation succeeds for no other id. -/
theorem hvVmInit_refines {vm : HvVm} {m : TablePools} {id : ℕ} {vmid : BitVec 32}
    (hinit : (hvVmInit P vm m id vmid).1 = hvVmOk) :
    Refines P (hvVmInit P vm m id vmid).2.1 (hvVmInit P vm m id vmid).2.2 AddressSpace.empty := by
  have hid : id < P.hvMaxVms := by
    by_contra hge
    rw [hvVmInit, if_pos (by omega)] at hinit
    cases hinit
  exact (hvVmInit_agrees P vm m vmid hid).2.2.2.1

/-- Translation reads the abstract map. -/
theorem Refines.translate (h : Refines P vm m a) (hs : a.Sound) (ipa : HvIpa) :
    (hvStage2Translate vm m ipa).map BitVec.toNat = a.translate ipa.toNat := by
  have hfit := stage2FitsV132bit_iff ipa
  rw [hvStage2Translate, AddressSpace.translate]
  simp only [Bool.not_eq_true', ← Bool.not_eq_true, hfit, not_lt]
  by_cases hx : 2 ^ 32 ≤ ipa.toNat
  · rw [if_pos hx, if_pos hx]
    rfl
  · have hv : ipa.toNat / 4096 < 2 ^ 20 := by omega
    obtain ⟨hreg, t, ht⟩ := h
    rw [if_neg hx, if_neg hx]
    rcases ht.walk ipa with ⟨n, hw, hn⟩ | ⟨hw, hn⟩
    · rw [hw]
      dsimp only
      rw [ht.leafCell hv hn]
      cases he : a.pages.entry (ipa.toNat / 4096) with
      | none =>
        rw [if_pos (by decide)]
        rfl
      | some e =>
        have hp := (hs.page_lt he).2
        have haddr : (BitVec.ofNat 64 (e.page * 4096)).toNat = e.page * 4096 := by
          rw [BitVec.toNat_ofNat]
          omega
        have htag : leafDesc (some e) &&& hvStage2DescPage = hvStage2DescPage := pageDesc_tag _ _
        rw [if_neg (not_not.mpr htag), leafDesc, pageDesc_addr _ _ (by omega) (by omega)]
        change Except.ok _ = Except.ok _
        rw [toNat_addr_or_offset _ _ (by omega), haddr]
    · rw [hw, ht.entry_none hv hn]
      rfl

end PiPervisor.Stage2
