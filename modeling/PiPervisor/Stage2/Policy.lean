import PiPervisor.Stage2.CallRefinement

/-! # Translations follow the region policy

Runs of calls on one VM. The regions a run accepts are read off its results,
and every address that translates lies in exactly one of them, of type RAM.
-/
namespace PiPervisor.Stage2
open Library Library.Transition AddressSpace

variable {P : Platform}

/-- Calls on one VM, in order. -/
def vmRun (s : HvVm × TablePools) (calls : List VmCall) : List ℤ × HvVm × TablePools :=
  exec (fun s c => vmCall s.1 s.2 c) s calls

/-- The regions added by the calls of a run, judged by the codes they returned. -/
def acceptedRegions (calls : List VmCall) (codes : List ℤ) : List HvVmRegion :=
  (calls.zip codes).flatMap fun p => acceptedBy p.2 p.1

theorem exec_step_regions (a : AddressSpace) (calls : List VmCall) :
    (exec AddressSpace.step a calls).2.regions =
      a.regions ++ acceptedRegions calls (exec AddressSpace.step a calls).1 := by
  induction calls generalizing a with
  | nil => exact (List.append_nil _).symm
  | cons c cs ih =>
    rw [exec_cons]
    dsimp only
    rw [ih, step_regions, List.append_assoc]
    rfl

/-- A run on a VM is a run of its address space. -/
theorem vmRun_refines {s : HvVm × TablePools} {a : AddressSpace} (h : Refines P s.1 s.2 a)
    (hs : a.Sound) (calls : List VmCall) :
    (vmRun s calls).1 = (exec AddressSpace.step a calls).1 ∧
      Refines P (vmRun s calls).2.1 (vmRun s calls).2.2 (exec AddressSpace.step a calls).2 ∧
      (exec AddressSpace.step a calls).2.Sound := by
  refine exec_simulates (R := fun (s : HvVm × TablePools) a => Refines P s.1 s.2 a ∧ a.Sound)
    ?_ s a calls ⟨h, hs⟩
  rintro s a c ⟨h, hs⟩
  have hc := h.call hs c
  exact ⟨hc.code, hc.refines, hs.step c⟩

/-- A translated address lies in exactly one region, of type RAM, at the region's offset. -/
theorem AddressSpace.Sound.translate_ok {a : AddressSpace} (h : a.Sound) {x : HvIpa} {p : ℕ}
    (ht : a.translate x.toNat = .ok p) :
    ∃ r, a.regions.filter (hvVmRegionContains · x) = [r] ∧ r.type = .ram ∧
      p = r.paBase.toNat + (x.toNat - r.ipaBase.toNat) := by
  rw [AddressSpace.translate] at ht
  split at ht
  · cases ht
  · cases he : a.pages.entry (x.toNat / 4096) with
    | none =>
      rw [he] at ht
      cases ht
    | some e =>
      simp only [he, Except.ok.injEq] at ht
      obtain ⟨r, hr, hram, h1, h2, h3⟩ := h.backed _ e he
      have hx : x.toNat ∈ r.span := ⟨by omega, by omega⟩
      refine ⟨r, h.table.filter_contains hr ((hvVmRegionContains_iff r x).mpr hx), hram, ?_⟩
      omega

/-- Whatever calls a VM has seen, an address is translated through the one accepted region that
contains it, at its offset there, and only if the region is RAM. -/
theorem stage2_policy_sound (P : Platform) (vm : HvVm) (m : TablePools) (id : ℕ)
    (vmid : BitVec 32) (calls : List VmCall) (hinit : (hvVmInit P vm m id vmid).1 = hvVmOk) :
    let run := vmRun (hvVmInit P vm m id vmid).2 calls
    let accepted := acceptedRegions calls run.1
    ∀ x : HvIpa,
      (∀ p, hvStage2Translate run.2.1 run.2.2 x = .ok p →
        ∃ r, accepted.filter (hvVmRegionContains · x) = [r] ∧ r.type = .ram ∧
          p.toNat = r.paBase.toNat + (x.toNat - r.ipaBase.toNat)) ∧
      ((∀ r ∈ accepted, x.toNat ∈ r.span → r.type ≠ .ram) →
        ∃ e, hvStage2Translate run.2.1 run.2.2 x = .error e) := by
  intro run accepted x
  have href := hvVmInit_refines hinit
  obtain ⟨hcodes, hrun, hsound⟩ := vmRun_refines href Sound.empty calls
  have hregions := exec_step_regions AddressSpace.empty calls
  rw [← hcodes] at hregions
  change _ = accepted at hregions
  have htrans := hrun.translate hsound x
  have hok (p : HvPa) (hp : hvStage2Translate run.2.1 run.2.2 x = .ok p) :
      ∃ r, accepted.filter (hvVmRegionContains · x) = [r] ∧ r.type = .ram ∧
        p.toNat = r.paBase.toNat + (x.toNat - r.ipaBase.toNat) := by
    have hspec := htrans.symm.trans (congrArg (Except.map BitVec.toNat) hp)
    have := hsound.translate_ok hspec
    rwa [hregions] at this
  refine ⟨hok, fun hno => ?_⟩
  cases ht : hvStage2Translate run.2.1 run.2.2 x with
  | error e => exact ⟨e, rfl⟩
  | ok p =>
    obtain ⟨r, hr, hram, -⟩ := hok p ht
    have hmem : r ∈ accepted.filter (hvVmRegionContains · x) := by
      rw [hr]
      exact List.mem_singleton_self r
    rw [List.mem_filter, hvVmRegionContains_iff] at hmem
    exact absurd hram (hno r hmem.1 hmem.2)

/-- One page of RAM, built and then read at an offset. -/
theorem stage2_policy_sound_one_page :
    let ram : HvVmRegion :=
      { ipaBase := 0x400000, size := 0x1000, paBase := 0x800000,
        attrs := hvStage2PageNormalNcRw, type := .ram, device := .none }
    let calls := [.addRegion ram, .buildStage2]
    let run := vmRun (hvVmInit .twoSlots ⟨0, 0, [], ⟨0, 0, 0, 0, 0, 0⟩⟩ (fun _ => 0) 1 7).2 calls
    ∃ r, (acceptedRegions calls run.1).filter (hvVmRegionContains · 0x400123) = [r] ∧
      r.type = .ram ∧ (0x800123 : HvPa).toNat = r.paBase.toNat + (0x400123 - r.ipaBase.toNat) := by
  intro ram calls run
  have htrans : hvStage2Translate run.2.1 run.2.2 0x400123 = .ok 0x800123 := by
    have hopt : (hvStage2Translate run.2.1 run.2.2 0x400123).toOption = some 0x800123 := by
      decide +kernel
    cases ht : hvStage2Translate run.2.1 run.2.2 0x400123 with
    | error e =>
      rw [ht] at hopt
      cases hopt
    | ok p =>
      rw [ht] at hopt
      exact congrArg Except.ok (Option.some.inj hopt)
  exact (stage2_policy_sound .twoSlots _ _ 1 7 calls rfl 0x400123).1 0x800123 htrans

end PiPervisor.Stage2
