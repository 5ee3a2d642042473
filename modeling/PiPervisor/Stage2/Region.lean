import PiPervisor.Stage2.Descriptor
import Mathlib.Order.Interval.Set.Disjoint
import Mathlib.Order.CompletePartialOrder
import Mathlib.Data.List.Pairwise

/-! # Regions of a VM

A VM's policy is a table of at most eight regions. A region is accepted only if
it is page aligned, lies in 32 bits and shares no address with a stored one.
-/
namespace PiPervisor.Stage2

def hvVmOk : ℤ := 0
def hvVmErrInval : ℤ := -1
def hvVmErrFull : ℤ := -3
def hvVmErrOverlap : ℤ := -4

def hvMaxVmRegions : ℕ := 8

inductive HvVmRegionType where
  | ram
  | ramGuard
  | mmio
  deriving DecidableEq, Repr

inductive HvVmMmioDevice where
  | none
  | vuart
  deriving DecidableEq, Repr

structure HvVmRegion where
  ipaBase : HvIpa
  size : BitVec 64
  paBase : HvPa
  attrs : BitVec 64
  type : HvVmRegionType
  device : HvVmMmioDevice
  deriving DecidableEq, Repr

def hvVmAligned (value : BitVec 64) : Bool := value &&& (hvStage2PageSize - 1) == 0

def hvVmFitsV132bit (base size : BitVec 64) : Bool :=
  if base > 0xffffffff ∨ size > 0x100000000 then false else base ≤ 0x100000000 - size

def hvVmRegionBacked (region : HvVmRegion) : Bool := region.type == .ram

def hvVmRegionValid (region : HvVmRegion) : Bool :=
  if region.size = 0 ∨ !hvVmAligned region.ipaBase ∨ !hvVmAligned region.size then false
  else if !hvVmFitsV132bit region.ipaBase region.size then false
  else if hvVmRegionBacked region ∧
      (!hvVmAligned region.paBase ∨ !hvVmFitsV132bit region.paBase region.size) then false
  else if region.type = .mmio then region.device != .none
  else region.type == .ram || region.type == .ramGuard

def hvVmRegionContains (region : HvVmRegion) (ipa : HvIpa) : Bool :=
  region.ipaBase ≤ ipa && ipa - region.ipaBase < region.size

def hvVmRegionsOverlap (a b : HvVmRegion) : Bool :=
  let aEnd := a.ipaBase + a.size
  let bEnd := b.ipaBase + b.size
  a.ipaBase < bEnd && b.ipaBase < aEnd

/-- The addresses a region covers. -/
def HvVmRegion.span (r : HvVmRegion) : Set ℕ :=
  Set.Ico r.ipaBase.toNat (r.ipaBase.toNat + r.size.toNat)

/-- What the validity test promises, as facts about natural numbers. -/
structure HvVmRegion.Valid (r : HvVmRegion) : Prop where
  ipa_aligned : r.ipaBase.toNat % 4096 = 0
  size_aligned : r.size.toNat % 4096 = 0
  size_pos : 0 < r.size.toNat
  ipa_fits : r.ipaBase.toNat + r.size.toNat ≤ 2 ^ 32
  pa_aligned : r.type = .ram → r.paBase.toNat % 4096 = 0
  pa_fits : r.type = .ram → r.paBase.toNat + r.size.toNat ≤ 2 ^ 32
  device : r.type = .mmio → r.device ≠ .none

theorem hvVmAligned_iff (value : BitVec 64) :
    hvVmAligned value = true ↔ value.toNat % 4096 = 0 := stage2Aligned_iff value

theorem hvVmFitsV132bit_iff (base size : BitVec 64) (hs : 0 < size.toNat) :
    hvVmFitsV132bit base size = true ↔ base.toNat + size.toNat ≤ 2 ^ 32 := by
  have h1 : base > 0xffffffff ↔ 0xffffffff < base.toNat := BitVec.lt_def
  have h2 : size > 0x100000000 ↔ 0x100000000 < size.toNat := BitVec.lt_def
  simp only [hvVmFitsV132bit, h1, h2]
  split
  · simp only [Bool.false_eq_true, false_iff]
    omega
  · have h3 : (0x100000000 - size : BitVec 64).toNat = 0x100000000 - size.toNat := by
      rw [BitVec.toNat_sub]
      change (2 ^ 64 - size.toNat + 0x100000000) % 2 ^ 64 = _
      omega
    rw [decide_eq_true_eq, BitVec.le_def, h3]
    omega

theorem hvVmRegionValid_iff (r : HvVmRegion) : hvVmRegionValid r = true ↔ r.Valid := by
  have hz : r.size = 0 ↔ r.size.toNat = 0 := by simp [← BitVec.toNat_inj]
  by_cases h0 : r.size.toNat = 0
  · have : ¬ r.Valid := fun h => by have := h.size_pos; omega
    have hz' : r.size = 0 := hz.mpr h0
    rw [hvVmRegionValid, if_pos (.inl hz')]
    simpa using this
  · have hpos : 0 < r.size.toNat := Nat.pos_of_ne_zero h0
    have hi := hvVmFitsV132bit_iff r.ipaBase r.size hpos
    have hp := hvVmFitsV132bit_iff r.paBase r.size hpos
    have ha := hvVmAligned_iff r.ipaBase
    have hs := hvVmAligned_iff r.size
    have hpa := hvVmAligned_iff r.paBase
    constructor
    · intro h
      unfold hvVmRegionValid hvVmRegionBacked at h
      refine ⟨?_, ?_, hpos, ?_, ?_, ?_, ?_⟩ <;> cases ht : r.type <;> simp_all
    · rintro ⟨h1, h2, h3, h4, h5, h6, h7⟩
      unfold hvVmRegionValid hvVmRegionBacked
      cases ht : r.type <;> simp_all

theorem hvVmRegionContains_iff (r : HvVmRegion) (ipa : HvIpa) :
    hvVmRegionContains r ipa = true ↔ ipa.toNat ∈ r.span := by
  have h1 := r.ipaBase.isLt
  have h2 := ipa.isLt
  rw [hvVmRegionContains, Bool.and_eq_true, decide_eq_true_eq, decide_eq_true_eq, BitVec.le_def,
    BitVec.lt_def, BitVec.toNat_sub, HvVmRegion.span, Set.mem_Ico]
  omega

/-- On valid regions the half-open comparison decides whether they share an address. -/
theorem hvVmRegionsOverlap_iff {a b : HvVmRegion} (ha : a.Valid) (hb : b.Valid) :
    hvVmRegionsOverlap a b = false ↔ Disjoint a.span b.span := by
  have h1 := ha.ipa_fits
  have h2 := hb.ipa_fits
  have hap := ha.size_pos
  have hbp := hb.size_pos
  simp only [hvVmRegionsOverlap, HvVmRegion.span, Bool.and_eq_false_iff,
    decide_eq_false_iff_not, BitVec.lt_def, BitVec.toNat_add, Set.Ico_disjoint_Ico]
  omega

/-- The region table invariant. -/
structure RegionTable (regions : List HvVmRegion) : Prop where
  count : regions.length ≤ hvMaxVmRegions
  valid : ∀ r ∈ regions, r.Valid
  disjoint : regions.Pairwise (fun a b => Disjoint a.span b.span)

theorem RegionTable.nil : RegionTable [] := ⟨by decide, by simp, .nil⟩

/-- At most one stored region contains an address. -/
theorem RegionTable.filter_contains {regions : List HvVmRegion} (h : RegionTable regions)
    {r : HvVmRegion} (hr : r ∈ regions) {ipa : HvIpa} (hc : hvVmRegionContains r ipa = true) :
    regions.filter (hvVmRegionContains · ipa) = [r] := by
  have hd := h.disjoint
  clear h
  induction regions with
  | nil => cases hr
  | cons a rs ih =>
    rw [List.pairwise_cons] at hd
    have hrc := (hvVmRegionContains_iff r ipa).mp hc
    by_cases ha : hvVmRegionContains a ipa = true
    · have hrest : rs.filter (hvVmRegionContains · ipa) = [] := by
        rw [List.filter_eq_nil_iff]
        intro b hb hbc
        exact Set.disjoint_left.mp (hd.1 b hb) ((hvVmRegionContains_iff a ipa).mp ha)
          ((hvVmRegionContains_iff b ipa).mp hbc)
      have har : a = r := by
        rcases List.mem_cons.mp hr with rfl | hr
        · rfl
        · have : r ∈ rs.filter (hvVmRegionContains · ipa) := List.mem_filter.mpr ⟨hr, hc⟩
          rw [hrest] at this
          cases this
      rw [List.filter_cons, if_pos ha, hrest, har]
    · have hr' : r ∈ rs := by
        rcases List.mem_cons.mp hr with rfl | hr
        · exact absurd hc ha
        · exact hr
      rw [List.filter_cons, if_neg ha]
      exact ih hr' hd.2

theorem RegionTable.unique {regions : List HvVmRegion} (h : RegionTable regions)
    {r r' : HvVmRegion} (hr : r ∈ regions) (hr' : r' ∈ regions) {x : ℕ} (hx : x ∈ r.span)
    (hx' : x ∈ r'.span) : r = r' := by
  have hlt : x < 2 ^ 64 := by
    have := (h.valid r hr).ipa_fits
    have := hx.2
    omega
  have hn : (BitVec.ofNat 64 x).toNat = x := by
    rw [BitVec.toNat_ofNat, Nat.mod_eq_of_lt hlt]
  have hc := (hvVmRegionContains_iff r (BitVec.ofNat 64 x)).mpr (by rwa [hn])
  have hc' := (hvVmRegionContains_iff r' (BitVec.ofNat 64 x)).mpr (by rwa [hn])
  have := (h.filter_contains hr hc).symm.trans (h.filter_contains hr' hc')
  exact (List.cons.inj this).1

theorem RegionTable.append {regions : List HvVmRegion} (h : RegionTable regions) {r : HvVmRegion}
    (hr : r.Valid) (hc : regions.length < hvMaxVmRegions)
    (hd : ∀ a ∈ regions, Disjoint a.span r.span) : RegionTable (regions ++ [r]) where
  count := by
    rw [List.length_append]
    exact hc
  valid := by
    intro a ha
    rcases List.mem_append.mp ha with ha | ha
    · exact h.valid a ha
    · rwa [List.mem_singleton.mp ha]
  disjoint := by
    rw [List.pairwise_append]
    refine ⟨h.disjoint, List.pairwise_singleton _ _, ?_⟩
    intro a ha b hb
    rw [List.mem_singleton.mp hb]
    exact hd a ha

end PiPervisor.Stage2
