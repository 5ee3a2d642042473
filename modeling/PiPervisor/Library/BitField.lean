import Mathlib.Data.Nat.Bitwise
import Mathlib.Data.Nat.Size
import Mathlib.Tactic.Ring

/-! # Fields and single bits of a machine word

A mask is described by the interval of bits it selects. Packing a field next
to other bits and reading it back are then facts about bit positions, for
every word width.
-/
namespace PiPervisor.Library.BitField

variable {w : ℕ}

/-- The mask selects exactly the bits from `lo` up to, not including, `hi`. -/
def IsField (mask : BitVec w) (lo hi : ℕ) : Prop :=
  ∀ i, mask.getLsbD i = (decide (lo ≤ i) && decide (i < hi))

theorem isField_of_forall_lt {mask : BitVec w} {lo hi : ℕ} (hw : hi ≤ w)
    (h : ∀ i : Fin w, mask.getLsbD i = (decide (lo ≤ i.val) && decide (i.val < hi))) :
    IsField mask lo hi := by
  intro i
  by_cases hi' : i < w
  · exact h ⟨i, hi'⟩
  · rw [BitVec.getLsbD_of_ge _ _ (Nat.le_of_not_lt hi')]
    have : ¬ i < hi := by omega
    simp [this]

/-- Masking with the low `k` bits is reduction modulo `2 ^ k`. -/
theorem toNat_and_low (x mask : BitVec w) (k : ℕ) (hm : mask.toNat = 2 ^ k - 1) :
    (x &&& mask).toNat = x.toNat % 2 ^ k := by
  rw [BitVec.toNat_and, hm, Nat.and_two_pow_sub_one_eq_mod]

theorem and_low_eq_zero_iff (x mask : BitVec w) (k : ℕ) (hm : mask.toNat = 2 ^ k - 1) :
    x &&& mask = 0#w ↔ x.toNat % 2 ^ k = 0 := by
  rw [← BitVec.toNat_inj, toNat_and_low x mask k hm]
  simp

theorem getLsbD_of_mod_eq_zero (x : BitVec w) (k i : ℕ) (hx : x.toNat % 2 ^ k = 0) (hi : i < k) :
    x.getLsbD i = false := by
  have h : (x.toNat % 2 ^ k).testBit i = x.toNat.testBit i := by
    simp [Nat.testBit_mod_two_pow, hi]
  rw [hx, Nat.zero_testBit] at h
  exact h.symm

theorem getLsbD_of_lt (x : BitVec w) (k i : ℕ) (hx : x.toNat < 2 ^ k) (hi : k ≤ i) :
    x.getLsbD i = false :=
  Nat.testBit_lt_two_pow (hx.trans_le (Nat.pow_le_pow_right (by decide) hi))

/-- Masking with the bits from `lo` on rounds down to a multiple of `2 ^ lo`. -/
theorem toNat_and_high (x : BitVec w) {mask : BitVec w} {lo : ℕ} (hm : IsField mask lo w) :
    (x &&& mask).toNat = x.toNat / 2 ^ lo * 2 ^ lo := by
  apply Nat.eq_of_testBit_eq
  intro i
  rw [BitVec.toNat_and, Nat.testBit_and, Nat.testBit_mul_two_pow, BitVec.testBit_toNat,
    BitVec.testBit_toNat, hm i]
  by_cases hi : lo ≤ i
  · rw [Nat.testBit_div_two_pow, Nat.sub_add_cancel hi, BitVec.testBit_toNat]
    by_cases hw : i < w
    · simp [hi, hw]
    · simp [BitVec.getLsbD_of_ge x i (Nat.le_of_not_lt hw)]
  · simp [hi]

/-- Masking with a field keeps the bits below `hi` and rounds them down. -/
theorem toNat_and_field (x : BitVec w) {mask : BitVec w} {lo hi : ℕ} (hm : IsField mask lo hi) :
    (x &&& mask).toNat = x.toNat % 2 ^ hi / 2 ^ lo * 2 ^ lo := by
  apply Nat.eq_of_testBit_eq
  intro i
  rw [BitVec.toNat_and, Nat.testBit_and, Nat.testBit_mul_two_pow, BitVec.testBit_toNat,
    BitVec.testBit_toNat, hm i]
  by_cases hi' : lo ≤ i
  · rw [Nat.testBit_div_two_pow, Nat.sub_add_cancel hi', Nat.testBit_mod_two_pow,
      BitVec.testBit_toNat]
    simp [hi', Bool.and_comm]
  · simp [hi']

/-- A word that fits its field is unchanged by the field's mask. -/
theorem and_field_eq_self {mask x : BitVec w} {lo hi : ℕ} (hm : IsField mask lo hi)
    (hlo : x.toNat % 2 ^ lo = 0) (hhi : x.toNat < 2 ^ hi) : x &&& mask = x := by
  apply BitVec.eq_of_getLsbD_eq
  intro i _
  rw [BitVec.getLsbD_and, hm i]
  by_cases hl : lo ≤ i
  · by_cases hh : i < hi
    · simp [hl, hh]
    · simp [getLsbD_of_lt x hi i hhi (Nat.le_of_not_lt hh)]
  · simp [getLsbD_of_mod_eq_zero x lo i hlo (Nat.lt_of_not_le hl)]

/-- Whatever is packed outside the field, the mask reads the field back. -/
theorem and_field_pack (mask a b low : BitVec w) (hlow : low &&& mask = 0#w) :
    (a &&& mask ||| b &&& ~~~mask ||| low) &&& mask = a &&& mask := by
  apply BitVec.eq_of_getLsbD_eq
  intro i hi
  have hl : (low &&& mask).getLsbD i = false := by rw [hlow]; simp
  simp only [BitVec.getLsbD_and] at hl
  simp only [BitVec.getLsbD_and, BitVec.getLsbD_or, BitVec.getLsbD_not, hi, decide_true,
    Bool.true_and]
  cases hb : mask.getLsbD i <;> simp_all

/-- Outside its field a packed word carries the other word and the tag. -/
theorem and_not_field_pack (mask a b low : BitVec w) (hlow : low &&& mask = 0#w) :
    (a &&& mask ||| b &&& ~~~mask ||| low) &&& ~~~mask = b &&& ~~~mask ||| low := by
  apply BitVec.eq_of_getLsbD_eq
  intro i hi
  have hl : (low &&& mask).getLsbD i = false := by rw [hlow]; simp
  simp only [BitVec.getLsbD_and, BitVec.getLsbD_or, BitVec.getLsbD_not, hi, decide_true,
    Bool.true_and] at hl ⊢
  cases hm : mask.getLsbD i <;> simp_all

/-- A tag that is or-ed into a word is read back by its own mask. -/
theorem or_and_self (x tag : BitVec w) : (x ||| tag) &&& tag = tag := by
  apply BitVec.eq_of_getLsbD_eq
  intro i _
  simp only [BitVec.getLsbD_and, BitVec.getLsbD_or]
  cases tag.getLsbD i <;> simp

/-- A field above bit `lo` and an offset below it are combined by addition. -/
theorem toNat_or_low (x y : BitVec w) (lo : ℕ) (hx : x.toNat % 2 ^ lo = 0)
    (hy : y.toNat < 2 ^ lo) : (x ||| y).toNat = x.toNat + y.toNat := by
  have hd : x.toNat = 2 ^ lo * (x.toNat / 2 ^ lo) := by
    have := Nat.div_add_mod x.toNat (2 ^ lo)
    omega
  rw [BitVec.toNat_or, hd, Nat.two_pow_add_eq_or_of_lt hy]

section Flags

/-- Set or clear the bits of a mask. -/
def putMask (x mask : BitVec w) (on : Bool) : BitVec w := if on then x ||| mask else x &&& ~~~mask

theorem putMask_and_self (x : BitVec w) {mask : BitVec w} (hm : mask ≠ 0#w) (on : Bool) :
    putMask x mask on &&& mask ≠ 0#w ↔ on = true := by
  cases on with
  | true => simpa [putMask, or_and_self] using hm
  | false =>
    have h : x &&& ~~~mask &&& mask = 0#w := by
      apply BitVec.eq_of_getLsbD_eq
      intro i hi
      simp only [BitVec.getLsbD_and, BitVec.getLsbD_not]
      cases mask.getLsbD i <;> simp
    simp [putMask, h]

/-- A mask that shares no bit is not affected. -/
theorem putMask_and_of_disjoint (x : BitVec w) {mask other : BitVec w}
    (hd : mask &&& other = 0#w) (on : Bool) : putMask x mask on &&& other = x &&& other := by
  apply BitVec.eq_of_getLsbD_eq
  intro i hi
  have hb : (mask.getLsbD i && other.getLsbD i) = false := by
    rw [← BitVec.getLsbD_and, hd, BitVec.getLsbD_zero]
  rw [BitVec.getLsbD_and, BitVec.getLsbD_and]
  cases hk : other.getLsbD i with
  | false => simp
  | true =>
    rw [hk, Bool.and_true] at hb
    cases on with
    | false =>
      change ((x &&& ~~~mask).getLsbD i && true) = _
      simp only [BitVec.getLsbD_and, BitVec.getLsbD_not, hb, hi, decide_true, Bool.not_false,
        Bool.and_true]
    | true => simp [putMask, BitVec.getLsbD_or, hb]

end Flags

section SingleBit

/-- Reading bit `j` after bit `k` is set. -/
theorem getLsbD_or_twoPow (x : BitVec w) (k j : ℕ) (hk : k < w) :
    (x ||| BitVec.twoPow w k).getLsbD j = (x.getLsbD j || decide (k = j)) := by
  rw [BitVec.getLsbD_or, BitVec.getLsbD_twoPow]
  simp [hk]

/-- Reading bit `j` after bit `k` is cleared. -/
theorem getLsbD_and_not_twoPow (x : BitVec w) (k j : ℕ) (hk : k < w) :
    (x &&& ~~~BitVec.twoPow w k).getLsbD j = (x.getLsbD j && decide (k ≠ j)) := by
  rw [BitVec.getLsbD_and, BitVec.getLsbD_not, BitVec.getLsbD_twoPow]
  by_cases hj : j < w
  · simp [hj, hk]
  · simp [BitVec.getLsbD_of_ge x j (Nat.le_of_not_lt hj)]

theorem and_twoPow_eq_zero_iff (x : BitVec w) (k : ℕ) (hk : k < w) :
    x &&& BitVec.twoPow w k = 0#w ↔ x.getLsbD k = false := by
  rw [BitVec.and_twoPow]
  have hne : BitVec.twoPow w k ≠ 0#w := by
    intro h
    have := congrArg (fun v => BitVec.getLsbD v k) h
    simp [hk] at this
  cases x.getLsbD k <;> simp [hne]

theorem eq_zero_iff_getLsbD (x : BitVec w) : x = 0#w ↔ ∀ i < w, x.getLsbD i = false := by
  constructor
  · intro h i _
    rw [h]; simp
  · intro h
    apply BitVec.eq_of_getLsbD_eq
    intro i hi
    rw [h i hi]; simp

end SingleBit

section Narrowing
variable {k : ℕ}

/-- Masking with the low bits narrows to them and widens again with zeros. -/
theorem and_low_eq_setWidth (x : BitVec w) {low : BitVec w} (hl : IsField low 0 k) :
    x &&& low = (x.setWidth k).setWidth w := by
  apply BitVec.eq_of_getLsbD_eq
  intro i hi
  rw [BitVec.getLsbD_and, hl i, BitVec.getLsbD_setWidth, BitVec.getLsbD_setWidth]
  simp [hi, Bool.and_comm]

/-- Setting the bits above the sign bit if that is set extends the sign. -/
theorem or_high_eq_signExtend (x : BitVec w) {low high : BitVec w} (hk : 0 < k)
    (hkw : k ≤ w) (hl : IsField low 0 k) (hh : IsField high k w) :
    (if x &&& low &&& BitVec.twoPow w (k - 1) ≠ 0#w then x &&& low ||| high else x &&& low) =
      (x.setWidth k).signExtend w := by
  have hmsb : (x.setWidth k).msb = x.getLsbD (k - 1) := by
    rw [BitVec.msb_eq_getLsbD_last, BitVec.getLsbD_setWidth]
    simp [hk]
  have hsign : x &&& low &&& BitVec.twoPow w (k - 1) = 0#w ↔ x.getLsbD (k - 1) = false := by
    rw [and_twoPow_eq_zero_iff _ _ (by omega), BitVec.getLsbD_and, hl (k - 1)]
    simp [hk]
  apply BitVec.eq_of_getLsbD_eq
  intro i hi
  rw [BitVec.getLsbD_signExtend, hmsb, BitVec.getLsbD_setWidth]
  by_cases hs : x.getLsbD (k - 1) = false
  · rw [if_neg (not_not.mpr (hsign.mpr hs)), BitVec.getLsbD_and, hl i, hs]
    by_cases hik : i < k <;> simp [hi, hik]
  · rw [if_pos (mt hsign.mp hs), BitVec.getLsbD_or, BitVec.getLsbD_and, hl i, hh i,
      Bool.eq_true_of_not_eq_false hs]
    by_cases hik : i < k
    · simp [hi, hik, Nat.not_le_of_lt hik]
    · simp [hi, hik, Nat.le_of_not_lt hik]

end Narrowing

end PiPervisor.Library.BitField
