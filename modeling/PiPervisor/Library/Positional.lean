import Mathlib.Data.Nat.Digits.Lemmas
import Mathlib.Tactic.Common

/-! # Positional notation

The usual way to write a number has its most significant digit first, no
leading zero, and one digit for zero. Reading a list of digits is folding it,
and the usual way is the only one without leading zeros.
-/
namespace PiPervisor.Library.Positional

variable {b n k d : ℕ} {l : List ℕ}

/-- The digits of a number from the last to the first. -/
def backward (b n : ℕ) : List ℕ := if n = 0 then [0] else Nat.digits b n

/-- The digits of a number from the first to the last. -/
def forward (b n : ℕ) : List ℕ := (backward b n).reverse

def read (b : ℕ) (l : List ℕ) : ℕ := l.foldl (fun w d => w * b + d) 0

/-- No leading zero, apart from the digit of zero itself. -/
def Plain (l : List ℕ) : Prop := l ≠ [] ∧ (l.head? = some 0 → l = [0])

/-- Dividing by the base splits off the last digit. -/
theorem backward_step (hb : 1 < b) (n : ℕ) :
    backward b n = n % b :: if n / b = 0 then [] else backward b (n / b) := by
  by_cases h0 : n = 0
  · subst h0
    simp [backward]
  · rw [backward, if_neg h0, Nat.digits_def' hb (Nat.pos_of_ne_zero h0)]
    by_cases hq : n / b = 0
    · rw [if_pos hq, hq, Nat.digits_zero]
    · rw [if_neg hq, backward, if_neg hq]

theorem backward_lt (hb : 1 < b) (h : d ∈ backward b n) : d < b := by
  rw [backward] at h
  split at h
  · rw [List.mem_singleton.mp h]
    omega
  · exact Nat.digits_lt_base hb h

theorem forward_lt (hb : 1 < b) (h : d ∈ forward b n) : d < b :=
  backward_lt hb (List.mem_reverse.mp h)

theorem backward_ne_nil (b n : ℕ) : backward b n ≠ [] := by
  rw [backward]
  split
  · exact List.cons_ne_nil _ _
  · rename_i h
    exact Nat.digits_ne_nil_iff_ne_zero.mpr h

theorem read_eq (b : ℕ) (l : List ℕ) : read b l = Nat.ofDigits b l.reverse := by
  induction l using List.reverseRecOn with
  | nil => rfl
  | append_singleton l d ih =>
    rw [read, List.foldl_append, List.foldl_cons, List.foldl_nil, List.reverse_append,
      List.reverse_singleton, List.singleton_append, Nat.ofDigits_cons, ← ih, read,
      Nat.add_comm, Nat.mul_comm]

theorem read_forward (b n : ℕ) : read b (forward b n) = n := by
  rw [read_eq, forward, List.reverse_reverse, backward]
  split
  · rename_i h
    rw [h, Nat.ofDigits_singleton]
  · exact Nat.ofDigits_digits b n

theorem forward_plain (b n : ℕ) : Plain (forward b n) := by
  refine ⟨by simpa [forward] using backward_ne_nil b n, ?_⟩
  rw [forward, List.head?_reverse, backward]
  split
  · exact fun _ => rfl
  · rename_i h
    intro h0
    rw [List.getLast?_eq_some_getLast (Nat.digits_ne_nil_iff_ne_zero.mpr h), Option.some.injEq] at h0
    exact absurd h0 (Nat.getLast_digit_ne_zero b h)

/-- A list of digits without a leading zero is the notation of what it reads as. -/
theorem forward_read (hb : 1 < b) (hl : ∀ d ∈ l, d < b) (hp : Plain l) :
    forward b (read b l) = l := by
  by_cases hz : l.head? = some 0
  · have h0 : read b [0] = 0 := by rw [read, List.foldl_cons, List.foldl_nil, Nat.zero_mul]
    rw [hp.2 hz, h0]
    rfl
  · have hne : l.reverse ≠ [] := by simpa using hp.1
    have hlast : ∀ h : l.reverse ≠ [], l.reverse.getLast h ≠ 0 := by
      intro h h0
      rw [List.getLast_reverse] at h0
      exact hz (by rw [List.head?_eq_some_head (by simpa using hne), h0])
    have hdigits := Nat.digits_ofDigits b hb l.reverse (fun d hd => hl d (List.mem_reverse.mp hd))
      hlast
    have hpos : read b l ≠ 0 := by
      intro h0
      rw [← read_eq, h0, Nat.digits_zero] at hdigits
      exact hne hdigits.symm
    rw [forward, backward, if_neg hpos, read_eq, hdigits, List.reverse_reverse]

/-- A list of digits is the notation of some number exactly if it has no leading zero. -/
theorem forward_eq_iff (hb : 1 < b) (hl : ∀ d ∈ l, d < b) :
    forward b n = l ↔ Plain l ∧ read b l = n := by
  constructor
  · rintro rfl
    exact ⟨forward_plain b n, read_forward b n⟩
  · rintro ⟨hp, rfl⟩
    exact forward_read hb hl hp

theorem length_forward (hb : 1 < b) (n : ℕ) : (forward b n).length = Nat.log b n + 1 := by
  rw [forward, List.length_reverse, backward]
  split
  · rename_i h
    rw [h, Nat.log_zero_right]
    rfl
  · rename_i h
    exact Nat.length_digits b n hb h

/-- Zeros in front do not count. -/
theorem read_zeros (b k : ℕ) (l : List ℕ) : read b (List.replicate k 0 ++ l) = read b l := by
  induction k with
  | zero => rfl
  | succ k ih =>
    rw [List.replicate_succ, List.cons_append, read, List.foldl_cons, Nat.zero_mul]
    exact ih

/-- No shorter list of digits reads as the same number. -/
theorem length_forward_read_le (hb : 1 < b) (hl : ∀ d ∈ l, d < b) (hne : l ≠ []) :
    (forward b (read b l)).length ≤ l.length := by
  rw [length_forward hb, Nat.succ_le_iff]
  have hlt : read b l < b ^ l.length := by
    rw [read_eq, ← List.length_reverse]
    exact Nat.ofDigits_lt_base_pow_length hb fun d hd => hl d (List.mem_reverse.mp hd)
  rcases Nat.eq_zero_or_pos (read b l) with h0 | h0
  · rw [h0, Nat.log_zero_right]
    exact List.length_pos_iff.mpr hne
  · exact Nat.log_lt_of_lt_pow h0.ne' hlt

end PiPervisor.Library.Positional
