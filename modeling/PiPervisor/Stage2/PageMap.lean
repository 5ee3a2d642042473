import PiPervisor.Library.BudgetedMap
import PiPervisor.Library.Transition
import PiPervisor.Platform
import PiPervisor.Stage2.Region

/-! # What an address space is for

The abstract state of a VM is its region table and a partial map from 4 KiB
pages to physical pages. Mapping a page needs one table for its 1 GiB block
and one for its 2 MiB block, out of the seven the root leaves in the pool.
Nothing here mentions descriptors or memory.
-/
namespace PiPervisor.Stage2
open Library

structure Mapping where
  page : ℕ
  attrs : BitVec 64
  deriving DecidableEq

/-- The index that page number `v` selects, nine bits from bit `s` on. -/
def pageIx (v s : ℕ) : Fin 512 := ⟨v / 2 ^ s % 512, Nat.mod_lt _ (by decide)⟩

/-- The tables a page needs, in order of allocation, named by their block. -/
def tablesOf (v : ℕ) : List (List (Fin 512)) := [[pageIx v 18], [pageIx v 18, pageIx v 9]]

def tableBudget : ℕ := 7

abbrev PageMap := BudgetedMap ℕ Mapping (List (Fin 512))

structure AddressSpace where
  regions : List HvVmRegion
  pages : PageMap

/-- The calls on an initialised VM. -/
inductive VmCall where
  | addRegion (region : HvVmRegion)
  | mapRegion (ipa : HvIpa) (pa : HvPa) (size attrs : BitVec 64)
  | unmapPage (ipa : HvIpa)
  | buildStage2

/-- A call, or the initialisation of the VM in a slot of the pool array. -/
inductive VmOp where
  | init (id : ℕ) (vmid : BitVec 32)
  | call (c : VmCall)

namespace AddressSpace

def empty : AddressSpace := ⟨[], BudgetedMap.empty⟩

/-- A RAM region contains the whole range and backs it by this physical range. -/
def Backed (regions : List HvVmRegion) (ipa pa size : ℕ) : Prop :=
  ∃ r ∈ regions, r.type = .ram ∧ r.ipaBase.toNat ≤ ipa ∧
    ipa + size ≤ r.ipaBase.toNat + r.size.toNat ∧ pa = r.paBase.toNat + (ipa - r.ipaBase.toNat)

/-- A range that is unaligned, empty or wraps. -/
def BadRange (ipa pa size : ℕ) : Prop :=
  ipa % 4096 ≠ 0 ∨ pa % 4096 ≠ 0 ∨ size % 4096 ≠ 0 ∨ size = 0 ∨
    2 ^ 64 < ipa + size ∨ 2 ^ 64 < pa + size

/-- The pages of a range in ascending order, each with its physical page. -/
def rangePages (ipa pa size : ℕ) (attrs : BitVec 64) : List (ℕ × Mapping) :=
  (List.range (size / 4096)).map fun k => (ipa / 4096 + k, ⟨pa / 4096 + k, attrs⟩)

def outcomeCode : BudgetedMap.Outcome → ℤ
  | .inserted => hvStage2Ok
  | .present => hvStage2ErrMapped
  | .exhausted => hvStage2ErrNoTables

/-- Insert the pages of the range up to the first that is mapped or finds no table. -/
def mapRange (a : AddressSpace) (ipa pa size : ℕ) (attrs : BitVec 64) : ℤ × AddressSpace :=
  let r := a.pages.insertAll tableBudget tablesOf (rangePages ipa pa size attrs)
  (outcomeCode r.1, { a with pages := r.2 })

open scoped Classical in
noncomputable def mapRegion (a : AddressSpace) (ipa pa size : ℕ) (attrs : BitVec 64) :
    ℤ × AddressSpace :=
  if BadRange ipa pa size then (hvStage2ErrInval, a)
  else if Backed a.regions ipa pa size then a.mapRange ipa pa size attrs
  else (hvStage2ErrRange, a)

open scoped Classical in
noncomputable def unmapPage (a : AddressSpace) (ipa : ℕ) : ℤ × AddressSpace :=
  if ipa % 4096 ≠ 0 then (hvStage2ErrInval, a)
  else if ∃ r ∈ a.regions, ipa ∈ r.span then
    (hvStage2Ok, { a with pages := a.pages.erase (ipa / 4096) })
  else (hvStage2ErrRange, a)

open scoped Classical in
noncomputable def addRegion (a : AddressSpace) (r : HvVmRegion) : ℤ × AddressSpace :=
  if ¬ r.Valid then (hvVmErrInval, a)
  else if hvMaxVmRegions ≤ a.regions.length then (hvVmErrFull, a)
  else if ∃ b ∈ a.regions, ¬ Disjoint b.span r.span then (hvVmErrOverlap, a)
  else (hvVmOk, { a with regions := a.regions ++ [r] })

noncomputable def build (a : AddressSpace) : List HvVmRegion → ℤ × AddressSpace
  | [] => (hvVmOk, a)
  | r :: rs =>
    if r.type ≠ .ram then build a rs
    else
      let res := a.mapRegion r.ipaBase.toNat r.paBase.toNat r.size.toNat r.attrs
      if res.1 ≠ hvStage2Ok then res else build res.2 rs

noncomputable def step (a : AddressSpace) : VmCall → ℤ × AddressSpace
  | .addRegion r => a.addRegion r
  | .mapRegion ipa pa size attrs => a.mapRegion ipa.toNat pa.toNat size.toNat attrs
  | .unmapPage ipa => a.unmapPage ipa.toNat
  | .buildStage2 => a.build a.regions

noncomputable def op (P : Platform) (a : AddressSpace) : VmOp → ℤ × AddressSpace
  | .init id _ => if id < P.hvMaxVms then (hvVmOk, empty) else (hvVmErrInval, a)
  | .call c => a.step c

/-- The mapped physical page combined with the offset in the page. -/
def translate (a : AddressSpace) (x : ℕ) : Except ℤ ℕ :=
  if 2 ^ 32 ≤ x then .error hvStage2ErrInval
  else
    match a.pages.entry (x / 4096) with
    | none => .error hvStage2ErrUnmapped
    | some e => .ok (e.page * 4096 + x % 4096)

/-- Every mapped page lies in a RAM region, at the region's physical offset. -/
structure Sound (a : AddressSpace) : Prop where
  table : RegionTable a.regions
  backed : ∀ v e, a.pages.entry v = some e → Backed a.regions (v * 4096) (e.page * 4096) 4096

theorem Sound.empty : Sound empty where
  table := .nil
  backed v e h := by cases h

theorem Sound.page_lt {a : AddressSpace} (h : a.Sound) {v : ℕ} {e : Mapping}
    (he : a.pages.entry v = some e) : v < 2 ^ 20 ∧ e.page < 2 ^ 20 := by
  obtain ⟨r, hr, hram, h1, h2, h3⟩ := h.backed v e he
  have hi := (h.table.valid r hr).ipa_fits
  have hp := (h.table.valid r hr).pa_fits hram
  omega

theorem Backed.mono {rs rs' : List HvVmRegion} {ipa pa size : ℕ}
    (h : Backed rs ipa pa size) (hs : ∀ r ∈ rs, r ∈ rs') : Backed rs' ipa pa size := by
  obtain ⟨r, hr, h⟩ := h
  exact ⟨r, hs r hr, h⟩

/-- Every page of a backed range is backed by its own physical page. -/
theorem Backed.page {rs : List HvVmRegion} {ipa pa size : ℕ} {attrs : BitVec 64}
    (h : Backed rs ipa pa size) (hi : ipa % 4096 = 0) (hp : pa % 4096 = 0) {v : ℕ} {e : Mapping}
    (hv : (v, e) ∈ rangePages ipa pa size attrs) : Backed rs (v * 4096) (e.page * 4096) 4096 := by
  obtain ⟨k, hk, he⟩ := List.mem_map.mp hv
  rw [List.mem_range] at hk
  obtain ⟨rfl, rfl⟩ := Prod.mk.inj he
  obtain ⟨r, hr, hram, h1, h2, h3⟩ := h
  refine ⟨r, hr, hram, by omega, by omega, ?_⟩
  change (pa / 4096 + k) * 4096 = _
  omega

theorem Sound.mapRegion {a : AddressSpace} (h : a.Sound) (ipa pa size : ℕ) (attrs : BitVec 64) :
    (a.mapRegion ipa pa size attrs).2.Sound := by
  unfold AddressSpace.mapRegion
  split_ifs with h1 h2
  · exact h
  · refine ⟨h.table, ?_⟩
    intro v e he
    rcases BudgetedMap.insertAll_entry tableBudget tablesOf
      (rangePages ipa pa size attrs) a.pages v with hsame | ⟨e', hmem, hin⟩
    · exact h.backed v e (hsame ▸ he)
    · change (BudgetedMap.insertAll _ _ _ _).2.entry v = some e at he
      rw [hin] at he
      obtain rfl := Option.some.inj he
      simp only [BadRange, not_or, not_not] at h1
      exact h2.page h1.1 h1.2.1 hmem
  · exact h

theorem mapRegion_regions (a : AddressSpace) (ipa pa size : ℕ) (attrs : BitVec 64) :
    (a.mapRegion ipa pa size attrs).2.regions = a.regions := by
  unfold AddressSpace.mapRegion
  split_ifs <;> rfl

theorem Sound.unmapPage {a : AddressSpace} (h : a.Sound) (ipa : ℕ) :
    (a.unmapPage ipa).2.Sound := by
  unfold AddressSpace.unmapPage
  split_ifs
  · exact h
  · refine ⟨h.table, ?_⟩
    intro v e he
    change Function.update a.pages.entry (ipa / 4096) none v = some e at he
    rw [Function.update_apply] at he
    split_ifs at he
    exact h.backed v e he
  · exact h

theorem Sound.addRegion {a : AddressSpace} (h : a.Sound) (r : HvVmRegion) :
    (a.addRegion r).2.Sound := by
  unfold AddressSpace.addRegion
  by_cases h1 : r.Valid
  · rw [if_neg (not_not.mpr h1)]
    split_ifs with h2 h3
    · exact h
    · exact h
    · refine ⟨h.table.append h1 (Nat.lt_of_not_le h2) ?_, ?_⟩
      · intro b hb
        exact not_not.mp fun hd => h3 ⟨b, hb, hd⟩
      · intro v e he
        exact (h.backed v e he).mono (fun b hb => List.mem_append_left _ hb)
  · rw [if_pos h1]
    exact h

theorem Sound.build {a : AddressSpace} (h : a.Sound) (rs : List HvVmRegion) :
    (a.build rs).2.Sound := by
  induction rs generalizing a with
  | nil => exact h
  | cons r rs ih =>
    have hm := h.mapRegion r.ipaBase.toNat r.paBase.toNat r.size.toNat r.attrs
    simp only [AddressSpace.build]
    split
    · exact ih h
    · split
      · exact hm
      · exact ih hm

theorem build_regions (a : AddressSpace) (rs : List HvVmRegion) :
    (a.build rs).2.regions = a.regions := by
  induction rs generalizing a with
  | nil => rfl
  | cons r rs ih =>
    have hm := mapRegion_regions a r.ipaBase.toNat r.paBase.toNat r.size.toNat r.attrs
    simp only [AddressSpace.build]
    split
    · exact ih a
    · split
      · exact hm
      · exact (ih _).trans hm

/-- Every call keeps every mapped page backed. -/
theorem Sound.step {a : AddressSpace} (h : a.Sound) (c : VmCall) : (a.step c).2.Sound := by
  cases c with
  | addRegion r => exact h.addRegion r
  | mapRegion ipa pa size attrs => exact h.mapRegion _ _ _ _
  | unmapPage ipa => exact h.unmapPage _
  | buildStage2 => exact h.build _

/-- The regions a call adds when it returns this code. -/
def acceptedBy (code : ℤ) : VmCall → List HvVmRegion
  | .addRegion r => if code = hvVmOk then [r] else []
  | _ => []

theorem step_regions (a : AddressSpace) (c : VmCall) :
    (a.step c).2.regions = a.regions ++ acceptedBy (a.step c).1 c := by
  cases c with
  | addRegion r =>
    simp only [AddressSpace.step, AddressSpace.addRegion]
    split_ifs <;> simp [acceptedBy, hvVmOk, hvVmErrInval, hvVmErrFull, hvVmErrOverlap]
  | mapRegion ipa pa size attrs =>
    exact (mapRegion_regions a _ _ _ _).trans (List.append_nil _).symm
  | unmapPage ipa =>
    simp only [AddressSpace.step, AddressSpace.unmapPage, acceptedBy, List.append_nil]
    split_ifs <;> rfl
  | buildStage2 => exact (build_regions a _).trans (List.append_nil _).symm

theorem outcomeCode_eq_ok_iff (o : BudgetedMap.Outcome) :
    outcomeCode o = hvStage2Ok ↔ o = .inserted := by
  cases o <;> simp [outcomeCode, hvStage2Ok, hvStage2ErrMapped, hvStage2ErrNoTables]

theorem rangePages_nodup (ipa pa size : ℕ) (attrs : BitVec 64) :
    ((rangePages ipa pa size attrs).map Prod.fst).Nodup := by
  rw [rangePages, List.map_map]
  apply List.nodup_range.map
  intro j k h
  exact Nat.add_left_cancel h

/-- Mapping a range succeeds exactly if each of its pages was absent and is stored now. -/
theorem mapRegion_ok_iff (a : AddressSpace) (hb : a.pages.held.length ≤ tableBudget)
    (ipa pa size : ℕ) (attrs : BitVec 64) :
    (a.mapRegion ipa pa size attrs).1 = hvStage2Ok ↔
      rangePages ipa pa size attrs ≠ [] ∧ ∀ p ∈ rangePages ipa pa size attrs,
        a.pages.entry p.1 = none ∧
          (a.mapRegion ipa pa size attrs).2.pages.entry p.1 = some p.2 := by
  have hkeep (hne : rangePages ipa pa size attrs ≠ [])
      (hall : ∀ p ∈ rangePages ipa pa size attrs,
        a.pages.entry p.1 = none ∧ a.pages.entry p.1 = some p.2) : False := by
    obtain ⟨p, hp⟩ := List.exists_mem_of_ne_nil _ hne
    have := (hall p hp).1.symm.trans (hall p hp).2
    cases this
  unfold AddressSpace.mapRegion
  by_cases h1 : BadRange ipa pa size
  · simp only [if_pos h1]
    exact iff_of_false (by decide) (fun h => hkeep h.1 h.2)
  · simp only [if_neg h1]
    by_cases h2 : Backed a.regions ipa pa size
    · simp only [if_pos h2]
      have hne : rangePages ipa pa size attrs ≠ [] := by
        simp only [BadRange, not_or, not_not] at h1
        rw [rangePages, ne_eq, List.map_eq_nil_iff, List.range_eq_nil]
        omega
      apply (outcomeCode_eq_ok_iff _).trans
      rw [BudgetedMap.insertAll_inserted_iff_stored _ _ _ _ hb (rangePages_nodup _ _ _ _),
        and_iff_right hne]
      rfl
    · simp only [if_neg h2]
      exact iff_of_false (by decide) (fun h => hkeep h.1 h.2)

end AddressSpace
end PiPervisor.Stage2
