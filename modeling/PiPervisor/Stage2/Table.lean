import PiPervisor.Platform
import PiPervisor.Library.Memory
import PiPervisor.Stage2.Region

/-! # Translation tables and the calls on a VM

The static array `stage2_table_pools` is one memory of descriptors; a pointer
into it is a descriptor number. Every call takes the VM and that memory and
returns both. Barriers and TLB maintenance have no state here, and a VM passed
by value is never a null pointer.
-/
namespace PiPervisor.Stage2
open Library.Memory

abbrev TablePools := ℕ → HvStage2Desc

structure HvStage2 where
  rootVa : ℕ
  rootPa : HvPa
  poolVa : ℕ
  poolPa : HvPa
  poolPages : ℕ
  poolUsed : ℕ
  deriving DecidableEq

/-- Address space and policy of a guest; the region count is the list's length. -/
structure HvVm where
  id : ℕ
  vmid : BitVec 32
  regions : List HvVmRegion
  stage2 : HvStage2
  deriving DecidableEq

def stage2ZeroTable (m : TablePools) (table : ℕ) : TablePools :=
  fill m table hvStage2DescsPerTable hvStage2DescInvalid

def stage2TableAt (s : HvStage2) (pageTableIdx : ℕ) : ℕ :=
  s.poolVa + pageTableIdx * hvStage2DescsPerTable

def stage2TablePa (s : HvStage2) (pageTableIdx : ℕ) : HvPa :=
  s.poolPa + BitVec.ofNat 64 pageTableIdx * hvStage2PageSize

def stage2AllocTable (s : HvStage2) (m : TablePools) : Option ℕ × HvStage2 × TablePools :=
  if s.poolUsed ≥ s.poolPages then (none, s, m)
  else
    let table := stage2TableAt s s.poolUsed
    (some table, { s with poolUsed := s.poolUsed + 1 }, stage2ZeroTable m table)

def stage2DescToTable (s : HvStage2) (desc : HvStage2Desc) : Option ℕ :=
  if desc &&& hvStage2DescTable ≠ hvStage2DescTable then none
  else
    let pa := desc &&& hvStage2DescAddrMask
    if pa < s.poolPa ∨ !stage2Aligned (pa - s.poolPa) then none
    else
      let pageIdx := (((pa - s.poolPa) / hvStage2PageSize).setWidth 32).toNat
      if pageIdx ≥ s.poolPages then none else some (stage2TableAt s pageIdx)

/-- The next-level table of the descriptor stored at `entry`, allocated if there is none. -/
def stage2NextTable (s : HvStage2) (m : TablePools) (entry : ℕ) :
    Option ℕ × HvStage2 × TablePools :=
  if m entry &&& hvStage2DescTable = hvStage2DescTable then (stage2DescToTable s (m entry), s, m)
  else if m entry &&& 1 ≠ 0 then (none, s, m)
  else
    let pageIdx := s.poolUsed
    match stage2AllocTable s m with
    | (none, s, m) => (none, s, m)
    | (some next, s, m) =>
      (some next, s, Function.update m entry (tableDesc (stage2TablePa s pageIdx)))

/-- Number of the leaf descriptor of `ipa`; `alloc` says whether to create missing tables. -/
def stage2WalkL3 (s : HvStage2) (m : TablePools) (ipa : HvIpa) (alloc : Bool) :
    Option ℕ × HvStage2 × TablePools :=
  let l1e := s.rootVa + stage2PageIndex ipa hvStage2L1Shift
  match (if alloc then stage2NextTable s m l1e else (stage2DescToTable s (m l1e), s, m)) with
  | (none, s, m) => (none, s, m)
  | (some l2, s, m) =>
    let l2e := l2 + stage2PageIndex ipa hvStage2L2Shift
    match (if alloc then stage2NextTable s m l2e else (stage2DescToTable s (m l2e), s, m)) with
    | (none, s, m) => (none, s, m)
    | (some l3, s, m) => (some (l3 + stage2PageIndex ipa hvStage2L3Shift), s, m)

def hvVmFindRegion (vm : HvVm) (ipa : HvIpa) : Option HvVmRegion :=
  vm.regions.find? (hvVmRegionContains · ipa)

def stage2RegionContainsMapping (region : Option HvVmRegion) (ipa : HvIpa) (pa : HvPa)
    (size : BitVec 64) : Bool :=
  match region with
  | none => false
  | some region =>
    if region.type ≠ .ram ∨ size = 0 ∨ ipa < region.ipaBase ∨ size > region.size ∨
        ipa - region.ipaBase > region.size - size then false
    else pa == region.paBase + (ipa - region.ipaBase)

variable (P : Platform)

/-- Pool of the VM with this id, then all of its tables zeroed. -/
def hvStage2Init (vm : HvVm) (m : TablePools) : ℤ × HvVm × TablePools :=
  if vm.id ≥ P.hvMaxVms then (hvStage2ErrInval, vm, m)
  else
    let poolVa := vm.id * (hvStage2MaxTablePages * hvStage2DescsPerTable)
    let poolPa := BitVec.ofNat 64 (P.stage2TablePools + 8 * poolVa)
    let s : HvStage2 :=
      { rootVa := 0, rootPa := 0, poolVa := poolVa, poolPa := poolPa,
        poolPages := hvStage2MaxTablePages, poolUsed := 1 }
    let s := { s with rootVa := stage2TableAt s 0, rootPa := stage2TablePa s 0 }
    (hvStage2Ok, { vm with stage2 := s },
      (List.range s.poolPages).foldl (fun m i => stage2ZeroTable m (stage2TableAt s i)) m)

def stage2MapPage (vm : HvVm) (m : TablePools) (ipa : HvIpa) (pa : HvPa) (attrs : BitVec 64) :
    ℤ × HvVm × TablePools :=
  match stage2WalkL3 vm.stage2 m ipa true with
  | (none, s, m) => (hvStage2ErrNoTables, { vm with stage2 := s }, m)
  | (some entry, s, m) =>
    -- bit 0 set: the page is already mapped
    if m entry &&& 1 ≠ 0 then (hvStage2ErrMapped, { vm with stage2 := s }, m)
    else (hvStage2Ok, { vm with stage2 := s }, Function.update m entry (pageDesc pa attrs))

/-- The values `offset` takes in the mapping loop. -/
def mapOffsets (size : BitVec 64) : List (BitVec 64) :=
  (List.range ((size.toNat + 4095) / 4096)).map (BitVec.ofNat 64 · * hvStage2PageSize)

def stage2MapPages (vm : HvVm) (m : TablePools) (ipa : HvIpa) (pa : HvPa) (attrs : BitVec 64) :
    List (BitVec 64) → ℤ × HvVm × TablePools
  | [] => (hvStage2Ok, vm, m)
  | offset :: offsets =>
    match stage2MapPage vm m (ipa + offset) (pa + offset) attrs with
    | (res, vm, m) =>
      if res ≠ hvStage2Ok then (res, vm, m) else stage2MapPages vm m ipa pa attrs offsets

def hvStage2MapRegion (vm : HvVm) (m : TablePools) (ipa : HvIpa) (pa : HvPa)
    (size attrs : BitVec 64) : ℤ × HvVm × TablePools :=
  if !stage2Aligned ipa ∨ !stage2Aligned pa ∨ !stage2Aligned size ∨ size = 0 then
    (hvStage2ErrInval, vm, m)
  else
    match stage2RangeEnd ipa size, stage2RangeEnd pa size with
    | some ipaEnd, some paEnd =>
      if !stage2FitsV132bit ipaEnd ∨ !stage2FitsV132bit paEnd then (hvStage2ErrRange, vm, m)
      else if !stage2RegionContainsMapping (hvVmFindRegion vm ipa) ipa pa size then
        (hvStage2ErrRange, vm, m)
      else stage2MapPages vm m ipa pa attrs (mapOffsets size)
    | _, _ => (hvStage2ErrInval, vm, m)

def hvStage2UnmapPage (vm : HvVm) (m : TablePools) (ipa : HvIpa) : ℤ × HvVm × TablePools :=
  if !stage2Aligned ipa then (hvStage2ErrInval, vm, m)
  else
    match hvVmFindRegion vm ipa with
    | none => (hvStage2ErrRange, vm, m)
    | some region =>
      if ipa < region.ipaBase ∨ ipa - region.ipaBase > region.size - hvStage2PageSize then
        (hvStage2ErrRange, vm, m)
      else
        match stage2WalkL3 vm.stage2 m ipa false with
        | (none, s, m) => (hvStage2Ok, { vm with stage2 := s }, m)
        | (some entry, s, m) =>
          (hvStage2Ok, { vm with stage2 := s }, Function.update m entry hvStage2DescInvalid)

/-- The physical address, or the error code; the tables are only read. -/
def hvStage2Translate (vm : HvVm) (m : TablePools) (ipa : HvIpa) : Except ℤ HvPa :=
  if !stage2FitsV132bit ipa then .error hvStage2ErrInval
  else
    match (stage2WalkL3 vm.stage2 m ipa false).1 with
    | none => .error hvStage2ErrUnmapped
    | some entry =>
      if m entry &&& hvStage2DescPage ≠ hvStage2DescPage then .error hvStage2ErrUnmapped
      else .ok (m entry &&& hvStage2DescAddrMask ||| ipa &&& (hvStage2PageSize - 1))

def hvVmInit (vm : HvVm) (m : TablePools) (id : ℕ) (vmid : BitVec 32) : ℤ × HvVm × TablePools :=
  if id ≥ P.hvMaxVms then (hvVmErrInval, vm, m)
  else
    let zero : HvVm := { id := 0, vmid := 0, regions := [], stage2 := ⟨0, 0, 0, 0, 0, 0⟩ }
    hvStage2Init P { zero with id := id, vmid := vmid } m

def hvVmAddRegion (vm : HvVm) (region : HvVmRegion) : ℤ × HvVm :=
  if !hvVmRegionValid region then (hvVmErrInval, vm)
  else if vm.regions.length ≥ hvMaxVmRegions then (hvVmErrFull, vm)
  else if vm.regions.any (hvVmRegionsOverlap · region) then (hvVmErrOverlap, vm)
  else (hvVmOk, { vm with regions := vm.regions ++ [region] })

/-- Map the RAM regions of the list in order, stopping at the first failure. -/
def buildRegions (vm : HvVm) (m : TablePools) : List HvVmRegion → ℤ × HvVm × TablePools
  | [] => (hvVmOk, vm, m)
  | region :: rest =>
    if region.type ≠ .ram then buildRegions vm m rest
    else
      match hvStage2MapRegion vm m region.ipaBase region.paBase region.size region.attrs with
      | (res, vm, m) => if res ≠ hvStage2Ok then (res, vm, m) else buildRegions vm m rest

def hvVmBuildStage2 (vm : HvVm) (m : TablePools) : ℤ × HvVm × TablePools :=
  buildRegions vm m vm.regions

end PiPervisor.Stage2
