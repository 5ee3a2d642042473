import PiPervisor.Printk.Numeral
import Mathlib.Order.Bounds.Basic

/-! # Printed numbers read back

A reader takes any text of digits for the number it denotes, zeros in front or
not. What is printed for a number reads back as that number, and it is as long
as the width asks for or else as short as a text of that number can be.
-/
namespace PiPervisor.Printk
open Library.Positional

section Reader

/-- The digit that a character stands for, and 16 for any other character. -/
def charValue (c : CChar) : ℕ :=
  if isDigit c then c.toNat - (ascii '0').toNat
  else if ascii 'a' ≤ c ∧ c ≤ ascii 'f' then c.toNat - (ascii 'a').toNat + 10
  else 16

/-- Reading a text in a base up to 16. -/
def readNumber (b : ℕ) (text : List CChar) : Option ℕ :=
  if text ≠ [] ∧ ∀ c ∈ text, charValue c < b then some (read b (text.map charValue)) else none

/-- Reading a decimal text with a sign if the number is negative. -/
def readSigned : List CChar → Option ℤ
  | [] => none
  | c :: text =>
    if c = ascii '-' then (readNumber 10 text).map fun n : ℕ => -(n : ℤ)
    else (readNumber 10 (c :: text)).map fun n : ℕ => (n : ℤ)

/-- The length of the shortest text that a reader takes for `v`. -/
def ShortestText {α : Type} (reader : List CChar → Option α) (v : α) (len : ℕ) : Prop :=
  IsLeast {k | ∃ text, reader text = some v ∧ text.length = k} len

end Reader

section Unsigned
variable {b n : ℕ} {l : List ℕ} {text : List CChar}

theorem charValue_digitChar : ∀ d < 16, charValue (digitChar d) = d := by decide

theorem readNumber_eq_some : readNumber b text = some n ↔
    text ≠ [] ∧ (∀ c ∈ text, charValue c < b) ∧ read b (text.map charValue) = n := by
  rw [readNumber]
  split
  · rename_i h
    rw [Option.some.injEq, ← and_assoc, and_iff_right h]
  · rename_i h
    exact iff_of_false nofun fun hn => h ⟨hn.1, hn.2.1⟩

theorem readNumber_digits (hb : b ≤ 16) (hl : ∀ d ∈ l, d < b) (hne : l ≠ []) :
    readNumber b (l.map digitChar) = some (read b l) := by
  have hvalues : (l.map digitChar).map charValue = l := by
    rw [List.map_map]
    refine (List.map_congr_left fun d hd => ?_).trans (List.map_id l)
    exact charValue_digitChar d ((hl d hd).trans_le hb)
  apply readNumber_eq_some.mpr
  rw [hvalues]
  refine ⟨by simpa using hne, ?_, rfl⟩
  intro c hc
  obtain ⟨d, hd, rfl⟩ := List.mem_map.mp hc
  rw [charValue_digitChar d ((hl d hd).trans_le hb)]
  exact hl d hd

/-- The width does not change what a text denotes. -/
theorem readNumber_padTo (hb : 1 < b) (hb' : b ≤ 16) (width n : ℕ) :
    readNumber b (padTo width (numeral b n)) = some n := by
  have hzeros : padTo width (numeral b n) =
      (List.replicate (width - (numeral b n).length) 0 ++ forward b n).map digitChar := by
    rw [List.map_append, List.map_replicate]
    rfl
  rw [hzeros, readNumber_digits hb', read_zeros, read_forward]
  · intro d hd
    rcases List.mem_append.mp hd with hd | hd
    · rw [List.eq_of_mem_replicate hd]
      exact Nat.zero_lt_of_lt hb
    · exact forward_lt hb hd
  · exact List.append_ne_nil_of_right_ne_nil _ (forward_plain b n).1

theorem length_numeral (hb : 1 < b) (n : ℕ) : (numeral b n).length = Nat.log b n + 1 := by
  rw [numeral, List.length_map, length_forward hb]

theorem length_padTo (width : ℕ) (text : List CChar) :
    (padTo width text).length = max width text.length := by
  rw [padTo, List.length_append, List.length_replicate]
  omega

theorem length_numeral_le (hb : 1 < b) (ht : readNumber b text = some n) :
    (numeral b n).length ≤ text.length := by
  obtain ⟨hne, hlt, rfl⟩ := readNumber_eq_some.mp ht
  have hvalues : ∀ d ∈ text.map charValue, d < b := by
    intro d hd
    obtain ⟨c, hc, rfl⟩ := List.mem_map.mp hd
    exact hlt c hc
  have hle := length_forward_read_le hb hvalues (by simpa using hne)
  rw [List.length_map] at hle
  rwa [numeral, List.length_map]

theorem numeral_shortest (hb : 1 < b) (hb' : b ≤ 16) (n : ℕ) :
    ShortestText (readNumber b) n (numeral b n).length := by
  constructor
  · refine ⟨numeral b n, ?_, rfl⟩
    rw [← padTo_zero (numeral b n)]
    exact readNumber_padTo hb hb' 0 n
  · rintro k ⟨text, ht, rfl⟩
    exact length_numeral_le hb ht

end Unsigned

section Signed

theorem charValue_minus : ¬ charValue (ascii '-') < 10 := by decide

/-- A text that a number is read from does not start with a sign. -/
theorem readSigned_readNumber {text : List CChar} {n : ℕ} (ht : readNumber 10 text = some n) :
    readSigned text = some (n : ℤ) := by
  obtain ⟨hne, hlt, -⟩ := readNumber_eq_some.mp ht
  cases text with
  | nil => exact absurd rfl hne
  | cons c text =>
    have hc : c ≠ ascii '-' := fun he => charValue_minus (he ▸ hlt c List.mem_cons_self)
    rw [readSigned, if_neg hc, ht]
    rfl

theorem readSigned_minus {text : List CChar} {n : ℕ} (ht : readNumber 10 text = some n) :
    readSigned (ascii '-' :: text) = some (-(n : ℤ)) := by
  rw [readSigned, if_pos rfl, ht]
  rfl

theorem readSigned_signedNumeral (width : ℕ) (v : ℤ) :
    readSigned (signedNumeral width v) = some v := by
  rw [signedNumeral]
  split
  · rename_i h
    rw [readSigned_minus (readNumber_padTo (by decide) (by decide) _ _), Int.ofNat_natAbs_of_nonpos
      h.le, neg_neg]
  · rename_i h
    rw [readSigned_readNumber (readNumber_padTo (by decide) (by decide) _ _),
      Int.natAbs_of_nonneg (not_lt.mp h)]

theorem length_signedNumeral (width : ℕ) (v : ℤ) :
    (signedNumeral width v).length = max width (signedNumeral 0 v).length := by
  have hpos : 0 < (numeral 10 v.natAbs).length := by
    rw [length_numeral (by decide)]
    exact Nat.succ_pos _
  rw [signedNumeral, signedNumeral]
  split
  · rw [List.length_cons, List.length_cons, length_padTo, length_padTo]
    omega
  · rw [length_padTo, length_padTo]
    omega

/-- A negative number takes a sign and a text of its magnitude. -/
theorem length_signedNumeral_le {text : List CChar} {v : ℤ} (ht : readSigned text = some v) :
    (signedNumeral 0 v).length ≤ text.length := by
  have hmagnitude {n : ℕ} {digits : List CChar} (hn : readNumber 10 digits = some n) :
      (padTo 0 (numeral 10 n)).length ≤ digits.length := by
    rw [padTo_zero]
    exact length_numeral_le (by decide) hn
  cases text with
  | nil => cases ht
  | cons c text =>
    rw [readSigned] at ht
    split at ht
    · obtain ⟨n, hn, rfl⟩ := Option.map_eq_some_iff.mp ht
      have hle := hmagnitude hn
      rw [signedNumeral, Int.natAbs_neg, Int.natAbs_natCast]
      split
      · exact Nat.succ_le_succ hle
      · exact Nat.le_succ_of_le hle
    · obtain ⟨n, hn, rfl⟩ := Option.map_eq_some_iff.mp ht
      rw [signedNumeral, if_neg (not_lt.mpr (Int.natCast_nonneg n)), Int.natAbs_natCast]
      exact hmagnitude hn

theorem signedNumeral_shortest (v : ℤ) : ShortestText readSigned v (signedNumeral 0 v).length := by
  refine ⟨⟨signedNumeral 0 v, readSigned_signedNumeral 0 v, rfl⟩, ?_⟩
  rintro k ⟨text, ht, rfl⟩
  exact length_signedNumeral_le ht

end Signed

section Outputs

/-- `num` is what the digit loop leaves in the buffer for `n`, and `out` what is put out. -/
structure Printed (base n padding : Word) (num out : List CChar) : Prop where
  stored : ∃ chars, baseChars base = some chars ∧ storeDigits chars base numSize n = .ok num
  room : num.length ≤ 32
  digits : ShortestText (readNumber base.toNat) n.toNat num.length
  emitted : outputNum base n padding = .ok out
  length : out.length = max padding.toNat num.length
  value : readNumber base.toNat out = some n.toNat
  leading : (out.drop (padding.toNat - num.length)).head? = some (ascii '0') → n = 0

theorem numeral_head? {b n : ℕ} (hb : 1 < b) (hb' : b ≤ 16)
    (h : (numeral b n).head? = some (ascii '0')) : n = 0 := by
  rw [numeral, List.head?_map] at h
  obtain ⟨d, hd, hzero⟩ := Option.map_eq_some_iff.mp h
  have hmem : d ∈ forward b n := List.mem_of_mem_head? hd
  have hvalue := charValue_digitChar d ((forward_lt hb hmem).trans_le hb')
  rw [hzero] at hvalue
  obtain rfl : 0 = d := hvalue
  rw [← read_forward b n, (forward_plain b n).2 hd]
  exact Nat.zero_mul b

theorem printed_of_base {chars : List CChar} {base : Word} (hb : 1 < base.toNat)
    (hb' : base.toNat ≤ 16) (hchars : baseChars base = some chars)
    (hc : ∀ d < base.toNat, chars.getD d 0 = digitChar d) (n padding : Word) :
    Printed base n padding ((backward base.toNat n.toNat).map digitChar)
      (padTo padding.toNat (numeral base.toNat n.toNat)) := by
  have hfit : n.toNat < base.toNat ^ 32 := n.isLt.trans_le (Nat.pow_le_pow_left hb 32)
  have hlen : ((backward base.toNat n.toNat).map digitChar).length =
      (numeral base.toNat n.toNat).length := by
    rw [numeral, forward, List.length_map, List.length_map, List.length_reverse]
  constructor
  · have hroom : n.toNat < base.toNat ^ numSize :=
      hfit.trans_le (Nat.pow_le_pow_right (Nat.zero_lt_of_lt hb) (by decide))
    exact ⟨chars, hchars, storeDigits_eq hb hc (by decide) hroom⟩
  · rw [hlen, length_numeral hb, Nat.succ_le_iff]
    rcases Nat.eq_zero_or_pos n.toNat with h0 | h0
    · rw [h0, Nat.log_zero_right]
      decide
    · exact Nat.log_lt_of_lt_pow h0.ne' hfit
  · rw [hlen]
    exact numeral_shortest hb hb' _
  · exact outputNum_of_base hb hchars hc n padding
  · rw [hlen, length_padTo]
  · exact readNumber_padTo hb hb' _ _
  · rw [hlen, padTo, List.drop_left' List.length_replicate]
    intro hzero
    exact BitVec.eq_of_toNat_eq (numeral_head? hb hb' hzero)

/-- What is printed for a number reads back as that number, in every base and with every padding,
and is as long as the padding or the shortest text of the number. -/
theorem printed_numbers_read_back :
    (∀ base n padding : Word, base ∈ [2, 10, 16] → ∃ num out, Printed base n padding num out) ∧
      ∀ n padding : Word, ∃ out len, outputSigned n padding = .ok out ∧
        readSigned out = some n.toInt ∧ ShortestText readSigned n.toInt len ∧
        out.length = max padding.toNat len := by
  constructor
  · intro base n padding hbase
    simp only [List.mem_cons, List.not_mem_nil, or_false] at hbase
    rcases hbase with rfl | rfl | rfl
    · exact ⟨_, _, printed_of_base (by decide) (by decide) rfl (by decide) n padding⟩
    · exact ⟨_, _, printed_of_base (by decide) (by decide) rfl (by decide) n padding⟩
    · exact ⟨_, _, printed_of_base (by decide) (by decide) rfl (by decide) n padding⟩
  · intro n padding
    exact ⟨_, _, outputSigned_eq n padding, readSigned_signedNumeral _ _,
      signedNumeral_shortest _, length_signedNumeral _ _⟩

/-- Eight digits after two zeros. -/
theorem printed_numbers_read_back_least : ∃ num out, Printed 16 0x80000000 10 num out ∧
    readNumber 16 out = some (2 ^ 31) := by
  obtain ⟨num, out, h⟩ := printed_numbers_read_back.1 16 0x80000000 10 (by decide)
  exact ⟨num, out, h, h.value⟩

end Outputs

end PiPervisor.Printk
