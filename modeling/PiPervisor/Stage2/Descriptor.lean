import PiPervisor.Library.BitField

/-! # Long descriptors of the stage-2 tables

Descriptors, intermediate and physical addresses are 64-bit words. A table or
page descriptor carries bits 12 to 39 of an address and is tagged in its two
lowest bits; a page descriptor keeps its attributes in the remaining bits.
-/
namespace PiPervisor.Stage2
open Library.BitField

abbrev HvStage2Desc := BitVec 64
abbrev HvIpa := BitVec 64
abbrev HvPa := BitVec 64

def hvStage2PageSize : BitVec 64 := 0x1000
def hvStage2DescsPerTable : ℕ := 512
def hvStage2MaxTablePages : ℕ := 8

def hvStage2L1Shift : ℕ := 30
def hvStage2L2Shift : ℕ := 21
def hvStage2L3Shift : ℕ := 12
def hvStage2IndexMask : BitVec 64 := 0x1ff

def hvStage2Ok : ℤ := 0
def hvStage2ErrInval : ℤ := -1
def hvStage2ErrRange : ℤ := -2
def hvStage2ErrNoTables : ℤ := -3
def hvStage2ErrMapped : ℤ := -4
def hvStage2ErrUnmapped : ℤ := -5

def hvStage2DescInvalid : HvStage2Desc := 0b00
def hvStage2DescTable : HvStage2Desc := 0b11
def hvStage2DescPage : HvStage2Desc := 0b11
def hvStage2DescAddrMask : HvStage2Desc := 0x000000fffffff000

def hvStage2AfSet : HvStage2Desc := 1 <<< 10
def hvStage2ShNonShareable : HvStage2Desc := 0 <<< 8
def hvStage2S2apRw : HvStage2Desc := 3 <<< 6
def hvStage2MemattrNormalOuterNcInnerNc : HvStage2Desc := 0x5 <<< 2
def hvStage2PageNormalNcRw : HvStage2Desc :=
  hvStage2DescPage ||| hvStage2AfSet ||| hvStage2ShNonShareable ||| hvStage2S2apRw |||
    hvStage2MemattrNormalOuterNcInnerNc

def hvStage2VtcrDefault : BitVec 32 := 1 <<< 6

/-- Index of the descriptor of `ipa` in a table of the level with this shift. -/
def stage2PageIndex (ipa : HvIpa) (shift : ℕ) : ℕ :=
  ((ipa >>> shift) &&& hvStage2IndexMask).toNat

def stage2Aligned (value : BitVec 64) : Bool := value &&& (hvStage2PageSize - 1) == 0

def stage2FitsV132bit (value : BitVec 64) : Bool := value ≤ 0xffffffff

/-- Last address of a range, unless the range is empty or wraps. -/
def stage2RangeEnd (base size : BitVec 64) : Option (BitVec 64) :=
  if size = 0 ∨ base > BitVec.allOnes 64 - (size - 1) then none else some (base + size - 1)

/-- The descriptor that points to a next-level table. -/
def tableDesc (pa : HvPa) : HvStage2Desc := pa &&& hvStage2DescAddrMask ||| hvStage2DescTable

/-- The descriptor of a mapped page. -/
def pageDesc (pa : HvPa) (attrs : BitVec 64) : HvStage2Desc :=
  pa &&& hvStage2DescAddrMask ||| attrs &&& ~~~hvStage2DescAddrMask ||| hvStage2DescPage

theorem addrMask_isField : IsField hvStage2DescAddrMask 12 40 :=
  isField_of_forall_lt (by decide) (by decide)

theorem stage2Aligned_iff (value : BitVec 64) :
    stage2Aligned value = true ↔ value.toNat % 4096 = 0 := by
  rw [stage2Aligned, beq_iff_eq]
  exact and_low_eq_zero_iff value _ 12 (by decide)

theorem stage2FitsV132bit_iff (value : BitVec 64) :
    stage2FitsV132bit value = true ↔ value.toNat < 2 ^ 32 := by
  rw [stage2FitsV132bit, decide_eq_true_eq, BitVec.le_def]
  change _ ≤ 0xffffffff ↔ _
  omega

theorem stage2PageIndex_eq (ipa : HvIpa) (shift : ℕ) :
    stage2PageIndex ipa shift = ipa.toNat / 2 ^ shift % 512 := by
  rw [stage2PageIndex, toNat_and_low _ _ 9 (by decide), BitVec.toNat_ushiftRight,
    Nat.shiftRight_eq_div_pow]
  rfl

theorem stage2PageIndex_lt (ipa : HvIpa) (shift : ℕ) : stage2PageIndex ipa shift < 512 := by
  rw [stage2PageIndex_eq]
  exact Nat.mod_lt _ (by decide)

/-- The range test accepts exactly the non-empty ranges inside 64 bits. -/
theorem stage2RangeEnd_eq_some_iff (base size e : BitVec 64) :
    stage2RangeEnd base size = some e ↔
      0 < size.toNat ∧ base.toNat + size.toNat ≤ 2 ^ 64 ∧
        e.toNat = base.toNat + size.toNat - 1 := by
  have hb := base.isLt
  have hs := size.isLt
  have h0 : size = 0 ↔ size.toNat = 0 := by simp [← BitVec.toNat_inj]
  rw [stage2RangeEnd]
  by_cases hz : size.toNat = 0
  · rw [if_pos (.inl (h0.mpr hz))]
    simp only [reduceCtorEq, false_iff]
    omega
  · have h1 : (size - 1).toNat = size.toNat - 1 := by
      rw [BitVec.toNat_sub]
      change (2 ^ 64 - 1 + size.toNat) % 2 ^ 64 = _
      omega
    have h2 : (BitVec.allOnes 64 - (size - 1)).toNat = 2 ^ 64 - size.toNat := by
      rw [BitVec.toNat_sub, h1, BitVec.toNat_allOnes]
      omega
    have h3 : (base > BitVec.allOnes 64 - (size - 1)) ↔ 2 ^ 64 < base.toNat + size.toNat := by
      rw [gt_iff_lt, BitVec.lt_def, h2]
      omega
    simp only [h0, hz, false_or, h3]
    by_cases hw : 2 ^ 64 < base.toNat + size.toNat
    · rw [if_pos hw]
      simp only [reduceCtorEq, false_iff]
      omega
    · rw [if_neg hw, Option.some.injEq, ← BitVec.toNat_inj]
      have h4 : (base + size - 1).toNat = base.toNat + size.toNat - 1 := by
        rw [BitVec.toNat_sub, BitVec.toNat_add]
        change (2 ^ 64 - 1 + _) % 2 ^ 64 = _
        omega
      rw [h4]
      omega

/-- A page-aligned address below 2^40 survives the address field. -/
theorem and_addrMask_eq_self (pa : HvPa) (ha : pa.toNat % 4096 = 0) (hb : pa.toNat < 2 ^ 40) :
    pa &&& hvStage2DescAddrMask = pa :=
  and_field_eq_self addrMask_isField ha hb

theorem tableDesc_tag (pa : HvPa) :
    tableDesc pa &&& hvStage2DescTable = hvStage2DescTable := or_and_self _ _

theorem tableDesc_addr (pa : HvPa) (ha : pa.toNat % 4096 = 0) (hb : pa.toNat < 2 ^ 40) :
    tableDesc pa &&& hvStage2DescAddrMask = pa := by
  have h := and_field_pack hvStage2DescAddrMask pa 0#64 hvStage2DescTable (by decide)
  rw [BitVec.zero_and, BitVec.or_zero] at h
  exact h.trans (and_addrMask_eq_self pa ha hb)

theorem pageDesc_tag (pa : HvPa) (attrs : BitVec 64) :
    pageDesc pa attrs &&& hvStage2DescPage = hvStage2DescPage := or_and_self _ _

theorem pageDesc_valid (pa : HvPa) (attrs : BitVec 64) : pageDesc pa attrs &&& 1 ≠ 0 := by
  intro h
  have h1 : pageDesc pa attrs &&& hvStage2DescPage &&& 1 =
      (pageDesc pa attrs &&& 1) &&& hvStage2DescPage := by
    rw [BitVec.and_assoc, BitVec.and_assoc, BitVec.and_comm hvStage2DescPage 1]
  rw [pageDesc_tag, h] at h1
  exact absurd h1 (by decide)

theorem pageDesc_addr (pa : HvPa) (attrs : BitVec 64) (ha : pa.toNat % 4096 = 0)
    (hb : pa.toNat < 2 ^ 40) : pageDesc pa attrs &&& hvStage2DescAddrMask = pa :=
  (and_field_pack hvStage2DescAddrMask pa attrs hvStage2DescPage (by decide)).trans
    (and_addrMask_eq_self pa ha hb)

/-- The low twelve bits of the address join the page as an offset. -/
theorem toNat_addr_or_offset (pa ipa : BitVec 64) (ha : pa.toNat % 4096 = 0) :
    (pa ||| ipa &&& (hvStage2PageSize - 1)).toNat = pa.toNat + ipa.toNat % 4096 := by
  have hl : (ipa &&& (hvStage2PageSize - 1)).toNat = ipa.toNat % 2 ^ 12 :=
    toNat_and_low ipa _ 12 (by decide)
  rw [toNat_or_low pa _ 12 ha (by rw [hl]; exact Nat.mod_lt _ (by decide)), hl]
  rfl

end PiPervisor.Stage2
