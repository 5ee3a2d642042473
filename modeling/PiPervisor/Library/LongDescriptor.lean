import PiPervisor.Library.BitField

/-! # Table walks in the long-descriptor format

The stage-2 lookup of a processor with the long-descriptor format and 4 KiB
tables, over a memory of bytes. A walk ends at a page or block descriptor or
faults; an access is checked against the access flag and the permissions of the
descriptor it ends at.
-/
namespace PiPervisor.Library.LongDescriptor

/-- The byte at each physical address. -/
abbrev PhysMem := ℕ → BitVec 8

inductive Access where
  | read
  | write
  | fetch
  deriving DecidableEq, Repr

inductive Fault where
  | translation
  | accessFlag
  | permission
  deriving DecidableEq, Repr

/-- The doubleword at an address, least significant byte first. -/
def readDesc (mem : PhysMem) (a : ℕ) : BitVec 64 :=
  mem (a + 7) ++ mem (a + 6) ++ mem (a + 5) ++ mem (a + 4) ++ mem (a + 3) ++ mem (a + 2) ++
    mem (a + 1) ++ mem a

/-- Bits `shift` to 39 of a descriptor, as an address. -/
def outputBase (d : BitVec 64) (shift : ℕ) : ℕ := d.toNat % 2 ^ 40 / 2 ^ shift * 2 ^ shift

/-- The walk of an input address from the table at `base`, by the levels with these shifts. -/
def walk (mem : PhysMem) (ia : ℕ) : List ℕ → ℕ → Except Fault (BitVec 64 × ℕ)
  | [], _ => .error .translation
  | shift :: shifts, base =>
    let d := readDesc mem (base + 8 * (ia / 2 ^ shift % 512))
    if d.getLsbD 0 = false then .error .translation
    else if shifts = [] then
      -- a page, or the reserved encoding of the last level
      if d.getLsbD 1 then .ok (d, shift) else .error .translation
    else if d.getLsbD 1 then walk mem ia shifts (outputBase d 12)
    else .ok (d, shift)

def outputAddress (d : BitVec 64) (shift ia : ℕ) : ℕ := outputBase d shift + ia % 2 ^ shift

/-- The access permissions of stage 2, and execute-never. -/
def permits (d : BitVec 64) : Access → Bool
  | .read => d.getLsbD 6
  | .write => d.getLsbD 7
  | .fetch => d.getLsbD 6 && !d.getLsbD 54

/-- The levels of a walk, by the starting level in VTCR. -/
def walkShifts (vtcr : BitVec 32) : List ℕ :=
  let sl0 := (vtcr >>> 6) &&& 0x3
  if sl0 = 1 then [30, 21, 12] else if sl0 = 0 then [21, 12] else []

/-- The number of bits of an input address; the size field of VTCR is signed. -/
def inputBits (vtcr : BitVec 32) : ℕ := (32 - (vtcr.setWidth 4).toInt).toNat

/-- Where an access to the input address `ia` ends up. -/
def translate (mem : PhysMem) (vtcr : BitVec 32) (base : ℕ) (access : Access) (ia : ℕ) :
    Except Fault ℕ :=
  if 2 ^ inputBits vtcr ≤ ia then .error .translation
  else
    match walk mem ia (walkShifts vtcr) base with
    | .error fault => .error fault
    | .ok (d, shift) =>
      if d.getLsbD 10 = false then .error .accessFlag
      else if !permits d access then .error .permission
      else .ok (outputAddress d shift ia)

variable {mem : PhysMem} {ia shift base : ℕ} {shifts : List ℕ} {d : BitVec 64}

theorem walk_invalid (hd : readDesc mem (base + 8 * (ia / 2 ^ shift % 512)) = d)
    (h0 : d.getLsbD 0 = false) : walk mem ia (shift :: shifts) base = .error .translation := by
  rw [walk, hd, if_pos h0]

/-- A table descriptor leads to the next level. -/
theorem walk_table (hd : readDesc mem (base + 8 * (ia / 2 ^ shift % 512)) = d)
    (h0 : d.getLsbD 0 = true) (h1 : d.getLsbD 1 = true) (hs : shifts ≠ []) :
    walk mem ia (shift :: shifts) base = walk mem ia shifts (outputBase d 12) := by
  rw [walk, hd, if_neg (by simp [h0]), if_neg hs, if_pos h1]

theorem walk_page (hd : readDesc mem (base + 8 * (ia / 2 ^ shift % 512)) = d)
    (h0 : d.getLsbD 0 = true) (h1 : d.getLsbD 1 = true) :
    walk mem ia [shift] base = .ok (d, shift) := by
  rw [walk, hd, if_neg (by simp [h0]), if_pos rfl, if_pos h1]

/-- The walk reads the doublewords at these addresses only. -/
theorem readDesc_congr {mem' : PhysMem} {a : ℕ} (h : ∀ k < 8, mem' (a + k) = mem (a + k)) :
    readDesc mem' a = readDesc mem a := by
  have h0 := h 0 (by decide)
  rw [Nat.add_zero] at h0
  rw [readDesc, readDesc, h 7 (by decide), h 6 (by decide), h 5 (by decide), h 4 (by decide),
    h 3 (by decide), h 2 (by decide), h 1 (by decide), h0]

end PiPervisor.Library.LongDescriptor
