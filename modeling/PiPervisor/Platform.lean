import Mathlib.Data.Nat.Notation
import Mathlib.Algebra.Group.Nat.Defs
import Mathlib.Tactic.Common

/-! # Build-time constants

`HV_MAX_VMS` is a parameter of the whole development, like the addresses that
the linker assigns. The static array of table pools is 4 KiB aligned and lies
below 2^40, the range of a descriptor's address field; every guest slot lies
below 2^32. These facts travel with the platform.
-/
namespace PiPervisor

def guestBase : ℕ := 0x20000
def guestSlotSize : ℕ := 0x10000

structure Platform where
  hvMaxVms : ℕ
  maxVms_pos : 0 < hvMaxVms
  slots_fit : guestBase + hvMaxVms * guestSlotSize ≤ 2 ^ 32
  /-- Address of `stage2_table_pools`, eight pages for each VM. -/
  stage2TablePools : ℕ
  pools_aligned : stage2TablePools % 4096 = 0
  pools_below : stage2TablePools + hvMaxVms * 32768 ≤ 2 ^ 40
  hvIdleVcpuEntry : BitVec 32
  idleStackTop : BitVec 32

/-- The configuration of the sources, with two guest slots. -/
def Platform.twoSlots : Platform where
  hvMaxVms := 2
  maxVms_pos := by decide
  slots_fit := by decide
  stage2TablePools := 0x10000
  pools_aligned := by decide
  pools_below := by decide
  hvIdleVcpuEntry := 0x9000
  idleStackTop := 0xa200

/-- Physical start of a guest slot, in the 32-bit arithmetic of the macro. -/
def guestSlotBase (slot : BitVec 32) : BitVec 32 :=
  BitVec.ofNat 32 guestBase + slot * BitVec.ofNat 32 guestSlotSize

theorem Platform.toNat_guestSlotBase (P : Platform) (i : ℕ) (hi : i < P.hvMaxVms) :
    (guestSlotBase (BitVec.ofNat 32 i)).toNat = guestBase + i * guestSlotSize := by
  have h := P.slots_fit
  simp only [guestSlotBase, guestBase, guestSlotSize, BitVec.toNat_add, BitVec.toNat_mul,
    BitVec.toNat_ofNat] at *
  omega

end PiPervisor
