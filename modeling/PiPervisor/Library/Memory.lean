import Mathlib.Logic.Function.Basic
import Mathlib.Data.Set.Basic
import Mathlib.Data.List.Basic
import Mathlib.Tactic.Common

/-! # Numbered memory cells

A memory is a total function on cell numbers. The two facts a verification
needs are what a write or a fill stores, and which cells it leaves alone.
-/
namespace PiPervisor.Library.Memory

variable {V : Type*}

/-- Store `v` in the `n` cells from `a` on, one after the other. -/
def fill (m : ℕ → V) (a n : ℕ) (v : V) : ℕ → V :=
  (List.range n).foldl (fun m i => Function.update m (a + i) v) m

theorem fill_succ (m : ℕ → V) (a n : ℕ) (v : V) :
    fill m a (n + 1) v = Function.update (fill m a n v) (a + n) v := by
  simp only [fill, List.range_succ, List.foldl_append, List.foldl_cons, List.foldl_nil]

theorem fill_apply (m : ℕ → V) (a n : ℕ) (v : V) (x : ℕ) :
    fill m a n v x = if a ≤ x ∧ x < a + n then v else m x := by
  induction n with
  | zero =>
    rw [if_neg (by omega)]
    rfl
  | succ n ih =>
    rw [fill_succ, Function.update_apply, ih]
    by_cases hx : x = a + n
    · have h : a ≤ x ∧ x < a + (n + 1) := by omega
      rw [if_pos hx, if_pos h]
    · have h : (a ≤ x ∧ x < a + (n + 1)) ↔ (a ≤ x ∧ x < a + n) := by omega
      rw [if_neg hx]
      simp only [h]

/-- The second memory differs from the first inside `s` only. -/
def SameOutside (s : Set ℕ) (m m' : ℕ → V) : Prop := ∀ x, x ∉ s → m' x = m x

theorem SameOutside.refl (s : Set ℕ) (m : ℕ → V) : SameOutside s m m := fun _ _ => rfl

theorem SameOutside.trans {s : Set ℕ} {m₁ m₂ m₃ : ℕ → V} (h₁ : SameOutside s m₁ m₂)
    (h₂ : SameOutside s m₂ m₃) : SameOutside s m₁ m₃ :=
  fun x hx => (h₂ x hx).trans (h₁ x hx)

theorem SameOutside.update {s : Set ℕ} (m : ℕ → V) {a : ℕ} (v : V) (ha : a ∈ s) :
    SameOutside s m (Function.update m a v) := by
  intro x hx
  apply Function.update_of_ne
  rintro rfl
  exact hx ha

theorem SameOutside.fill {s : Set ℕ} (m : ℕ → V) (a n : ℕ) (v : V)
    (hs : ∀ x, a ≤ x → x < a + n → x ∈ s) : SameOutside s m (fill m a n v) := by
  intro x hx
  rw [fill_apply, if_neg]
  rintro ⟨h₁, h₂⟩
  exact hx (hs x h₁ h₂)

end PiPervisor.Library.Memory
