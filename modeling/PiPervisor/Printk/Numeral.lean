import PiPervisor.Library.Positional
import PiPervisor.Printk.Format

/-! # Numbers as they are printed

A number is printed in its usual notation, with zeros in front up to the
width; the sign of a negative number takes one place of the width. The buffer
never overflows.
-/
namespace PiPervisor.Printk
open Library.Positional

def digitChar (d : ℕ) : CChar := base16Chars.getD d 0

/-- The usual notation of a number in a base up to 16. -/
def numeral (b n : ℕ) : List CChar := (forward b n).map digitChar

/-- Zeros in front, up to the width. -/
def padTo (width : ℕ) (l : List CChar) : List CChar :=
  List.replicate (width - l.length) (ascii '0') ++ l

/-- A signed number, whose sign counts for the width. -/
def signedNumeral (width : ℕ) (v : ℤ) : List CChar :=
  if v < 0 then ascii '-' :: padTo (width - 1) (numeral 10 v.natAbs)
  else padTo width (numeral 10 v.natAbs)

theorem padZeros_eq (len padding : ℕ) :
    padZeros len padding = List.replicate (padding - len) (ascii '0') := by
  induction padding with
  | zero => rw [padZeros, Nat.zero_sub, List.replicate_zero]
  | succ padding ih =>
    rw [padZeros]
    split
    · rename_i h
      rw [ih, Nat.succ_sub (Nat.le_of_lt_succ h), List.replicate_succ]
    · rename_i h
      rw [Nat.sub_eq_zero_of_le (Nat.le_of_not_lt h), List.replicate_zero]

/-- The digits of a number that fits the room are all stored, from the last to the first. -/
theorem storeDigits_eq {chars : List CChar} {base : Word} (hb : 1 < base.toNat)
    (hc : ∀ d < base.toNat, chars.getD d 0 = digitChar d) {room : ℕ} (hr : 0 < room) {n : Word}
    (hn : n.toNat < base.toNat ^ room) :
    storeDigits chars base room n = .ok ((backward base.toNat n.toNat).map digitChar) := by
  induction room generalizing n with
  | zero => cases hr
  | succ room ih =>
    have hdigit : chars.getD (n % base).toNat 0 = digitChar (n.toNat % base.toNat) := by
      rw [BitVec.toNat_umod]
      exact hc _ (Nat.mod_lt _ (by omega))
    have hquot : (n / base).toNat = n.toNat / base.toNat := BitVec.toNat_udiv
    have hzero : n / base = 0 ↔ n.toNat / base.toNat = 0 := by
      rw [← BitVec.toNat_inj, hquot]
      rfl
    rw [storeDigits, backward_step hb, hdigit]
    by_cases hq : n.toNat / base.toNat = 0
    · rw [if_neg (not_not.mpr (hzero.mpr hq)), if_pos hq]
      rfl
    · have hroom : 0 < room := by
        rcases Nat.eq_zero_or_pos room with rfl | h
        · rw [pow_one] at hn
          exact absurd (Nat.div_eq_of_lt hn) hq
        · exact h
      have hlt : (n / base).toNat < base.toNat ^ room := by
        rw [hquot, Nat.div_lt_iff_lt_mul (by omega), ← pow_succ]
        exact hn
      rw [if_pos (mt hzero.mp hq), if_neg hq, ih hroom hlt, hquot]
      rfl

theorem outputNum_of_base {chars : List CChar} {base : Word} (hb : 1 < base.toNat)
    (hchars : baseChars base = some chars) (hc : ∀ d < base.toNat, chars.getD d 0 = digitChar d)
    (n padding : Word) :
    outputNum base n padding = .ok (padTo padding.toNat (numeral base.toNat n.toNat)) := by
  have hfit : n.toNat < base.toNat ^ numSize :=
    (n.isLt.trans (by decide : 2 ^ 32 < 2 ^ numSize)).trans_le (Nat.pow_le_pow_left hb _)
  have hlen : ((backward base.toNat n.toNat).map digitChar).length =
      (numeral base.toNat n.toNat).length := by
    rw [numeral, forward, List.length_map, List.length_map, List.length_reverse]
  rw [outputNum, hchars]
  dsimp only
  rw [storeDigits_eq hb hc (by decide) hfit]
  change Except.ok _ = Except.ok _
  rw [padZeros_eq, hlen, ← List.map_reverse]
  rfl

theorem outputNum_two (n padding : Word) :
    outputNum 2 n padding = .ok (padTo padding.toNat (numeral 2 n.toNat)) :=
  outputNum_of_base (show 1 < (2 : Word).toNat by decide) rfl (by decide) n padding

theorem outputNum_ten (n padding : Word) :
    outputNum 10 n padding = .ok (padTo padding.toNat (numeral 10 n.toNat)) :=
  outputNum_of_base (show 1 < (10 : Word).toNat by decide) rfl (by decide) n padding

theorem outputNum_sixteen (n padding : Word) :
    outputNum 16 n padding = .ok (padTo padding.toNat (numeral 16 n.toNat)) :=
  outputNum_of_base (show 1 < (16 : Word).toNat by decide) rfl (by decide) n padding

theorem padTo_zero (l : List CChar) : padTo 0 l = l := by
  rw [padTo, Nat.zero_sub, List.replicate_zero, List.nil_append]

/-- The magnitude of a negative number, the least one included, fits a word. -/
theorem outputSigned_eq (n padding : Word) :
    outputSigned n padding = .ok (signedNumeral padding.toNat n.toInt) := by
  have hslt : n.slt 0 = true ↔ n.toInt < 0 := by simp [BitVec.slt]
  rw [outputSigned, signedNumeral]
  by_cases hneg : n.toInt < 0
  · have hmag : (0 - n).toNat = n.toInt.natAbs := by
      rw [BitVec.toNat_sub]
      rw [BitVec.toInt_eq_toNat_cond] at hneg ⊢
      have := n.isLt
      change (2 ^ 32 - n.toNat + 0) % 2 ^ 32 = _
      split at hneg <;> split <;> omega
    have hpad : (if padding > 0 then padding - 1 else padding).toNat = padding.toNat - 1 := by
      have hpos : padding > 0 ↔ 0 < padding.toNat := BitVec.lt_def
      split
      · rename_i h
        rw [BitVec.toNat_sub]
        have := hpos.mp h
        have := padding.isLt
        change (2 ^ 32 - 1 + padding.toNat) % 2 ^ 32 = _
        omega
      · rename_i h
        have := mt hpos.mpr h
        omega
    rw [if_pos (hslt.mpr hneg), if_pos hneg, outputNum_ten, hmag, hpad]
    rfl
  · have hmag : n.toNat = n.toInt.natAbs := by
      rw [BitVec.toInt_eq_toNat_cond] at hneg ⊢
      have := n.isLt
      split at hneg <;> split <;> omega
    rw [if_neg (mt hslt.mp hneg), if_neg hneg, outputNum_ten, hmag]

end PiPervisor.Printk
