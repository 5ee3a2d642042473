import Mathlib.Tactic.Common

/-! # Ranges that wrap around

Addresses are numbers below `m`, and a range of `n` addresses from `b` on goes on at zero
when it reaches `m`. Such a range meets `[s, e)` in its first part or in its wrapped part.
-/
namespace PiPervisor.Library.WrappedRange

variable {m s e b n : ℕ}

/-- The range of `n` addresses from `b` on meets `[s, e)`. -/
def Meets (m s e b n : ℕ) : Prop := ∃ i < n, s ≤ (b + i) % m ∧ (b + i) % m < e

/-- A range that does not wrap. -/
theorem meets_iff_of_fit (hse : s < e) (hfit : b + n ≤ m) :
    Meets m s e b n ↔ 0 < n ∧ s < b + n ∧ b < e := by
  constructor
  · rintro ⟨i, hi, hlo, hhi⟩
    rw [Nat.mod_eq_of_lt (by omega)] at hlo hhi
    omega
  · rintro ⟨hn, hend, hbase⟩
    refine ⟨s - b, by omega, ?_⟩
    rw [Nat.mod_eq_of_lt (by omega)]
    omega

/-- A range that reaches the end of the addresses. -/
theorem meets_iff_of_wrap (hse : s < e) (he : e ≤ m) (hb : b < m) (hn : n ≤ m) (hwrap : m ≤ b + n) :
    Meets m s e b n ↔ b < e ∨ s + m < b + n := by
  constructor
  · rintro ⟨i, hi, hlo, hhi⟩
    by_cases hpart : b + i < m
    · rw [Nat.mod_eq_of_lt hpart] at hhi
      exact .inl (by omega)
    · have hmod : (b + i) % m = b + i - m := by
        rw [Nat.mod_eq_sub_mod (Nat.not_lt.mp hpart), Nat.mod_eq_of_lt (by omega)]
      rw [hmod] at hlo
      exact .inr (by omega)
  · rintro (hbase | hend)
    · refine ⟨s - b, by omega, ?_⟩
      rw [Nat.mod_eq_of_lt (by omega)]
      omega
    · refine ⟨s + m - b, by omega, ?_⟩
      have hat : b + (s + m - b) = s + m := by omega
      rw [hat, Nat.add_mod_right, Nat.mod_eq_of_lt (by omega)]
      exact ⟨Nat.le_refl s, hse⟩

end PiPervisor.Library.WrappedRange
