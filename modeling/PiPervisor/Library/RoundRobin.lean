import Mathlib.Data.List.Nodup
import Mathlib.Data.Fin.Basic
import Mathlib.Tactic.Common

/-! # Round robin on a ring

A cursor moves on a ring of slots to the nearest slot ahead that is ready, its own
slot last. While one slot stays ready and is not chosen, every choice comes nearer to
it, so that no other slot is chosen twice.
-/
namespace PiPervisor.Library.RoundRobin

variable {n : ℕ}

/-- The slot that is `k` slots behind the one next to `start`. -/
def ahead (start : Fin (n + 1)) (k : ℕ) : Fin (n + 1) :=
  ⟨(start.val + (k + 1)) % (n + 1), Nat.mod_lt _ (Nat.succ_pos _)⟩

/-- All slots in the order of the scan, `start` itself last. -/
def ring (start : Fin (n + 1)) : List (Fin (n + 1)) := (List.range (n + 1)).map (ahead start)

/-- The number of slots that the scan from `c` meets before `i`. -/
def toGo (c i : Fin (n + 1)) : ℕ := if c.val < i.val then i.val - c.val - 1 else i.val + n - c.val

theorem toGo_le (c i : Fin (n + 1)) : toGo c i ≤ n := by
  have hi := i.isLt
  rw [toGo]
  split <;> omega

theorem toGo_ahead (c : Fin (n + 1)) {k : ℕ} (hk : k ≤ n) : toGo c (ahead c k) = k := by
  have hc := c.isLt
  have hval : (ahead c k).val = (c.val + (k + 1)) % (n + 1) := rfl
  rw [toGo, hval]
  by_cases hlt : c.val + (k + 1) < n + 1
  · rw [Nat.mod_eq_of_lt hlt, if_pos (by omega)]
    omega
  · have hmod : (c.val + (k + 1)) % (n + 1) = c.val + (k + 1) - (n + 1) := by
      rw [Nat.mod_eq_sub_mod (by omega), Nat.mod_eq_of_lt (by omega)]
    rw [hmod, if_neg (by omega)]
    omega

theorem ahead_toGo (c i : Fin (n + 1)) : ahead c (toGo c i) = i := by
  have hc := c.isLt
  have hi := i.isLt
  apply Fin.ext
  change (c.val + (toGo c i + 1)) % (n + 1) = i.val
  rw [toGo]
  by_cases hlt : c.val < i.val
  · rw [if_pos hlt]
    have he : c.val + (i.val - c.val - 1 + 1) = i.val := by omega
    rw [he, Nat.mod_eq_of_lt hi]
  · rw [if_neg hlt]
    have he : c.val + (i.val + n - c.val + 1) = i.val + (n + 1) := by omega
    rw [he, Nat.add_mod_right, Nat.mod_eq_of_lt hi]

theorem toGo_inj {c i j : Fin (n + 1)} (h : toGo c i = toGo c j) : i = j := by
  rw [← ahead_toGo c i, h, ahead_toGo]

theorem mem_ring (c i : Fin (n + 1)) : i ∈ ring c := by
  have hle := toGo_le c i
  exact List.mem_map.mpr ⟨toGo c i, List.mem_range.mpr (by omega), ahead_toGo c i⟩

/-- The scan stops at the nearest slot that is ready. -/
theorem find?_ring_some {ready : Fin (n + 1) → Bool} {c j : Fin (n + 1)}
    (h : (ring c).find? ready = some j) :
    ready j = true ∧ ∀ i, ready i = true → toGo c j ≤ toGo c i := by
  rw [ring, List.find?_map, Option.map_eq_some_iff] at h
  obtain ⟨k, hk, rfl⟩ := h
  obtain ⟨hready, hmem, hfirst⟩ := List.find?_range_eq_some.mp hk
  have hle : k ≤ n := Nat.lt_succ_iff.mp (List.mem_range.mp hmem)
  refine ⟨hready, fun i hi => ?_⟩
  rw [toGo_ahead c hle]
  by_contra hlt
  have hnot := hfirst (toGo c i) (Nat.not_le.mp hlt)
  rw [Function.comp_apply, ahead_toGo, hi] at hnot
  cases hnot

theorem find?_ring_none {ready : Fin (n + 1) → Bool} {c : Fin (n + 1)}
    (h : (ring c).find? ready = none) (i : Fin (n + 1)) : ready i = false := by
  have hi := List.find?_eq_none.mp h i (mem_ring c i)
  rwa [Bool.not_eq_true] at hi

section Fairness
variable {i c j : Fin (n + 1)}

/-- A cursor that moves to a slot before `i` comes nearer to `i`. -/
theorem toGo_lt_of_lt (h : toGo c j < toGo c i) : toGo j i < toGo c i := by
  have hc := c.isLt
  have hi := i.isLt
  have hj := j.isLt
  simp only [toGo] at h ⊢
  split_ifs at h ⊢ <;> omega

/-- The choice of another slot while `i` is ready. -/
theorem toGo_find?_ring {ready : Fin (n + 1) → Bool} (h : (ring c).find? ready = some j)
    (hi : ready i = true) (hne : j ≠ i) : toGo j i < toGo c i := by
  have hle := (find?_ring_some h).2 i hi
  have hlt : toGo c j < toGo c i := lt_of_le_of_ne hle fun he => hne (toGo_inj he)
  exact toGo_lt_of_lt hlt

/-- A sequence of choices each of which comes nearer to `i`, from cursor `c`. -/
def Approaches (i c : Fin (n + 1)) : List (Fin (n + 1)) → Prop
  | [] => True
  | j :: js => toGo j i < toGo c i ∧ Approaches i j js

theorem Approaches.lt {js : List (Fin (n + 1))} (h : Approaches i c js) :
    ∀ j ∈ js, toGo j i < toGo c i := by
  induction js generalizing c with
  | nil => exact fun _ hj => absurd hj List.not_mem_nil
  | cons k js ih =>
    obtain ⟨hk, hjs⟩ := h
    intro j hj
    rcases List.mem_cons.mp hj with rfl | hj
    · exact hk
    · exact (ih hjs j hj).trans hk

/-- No slot is chosen twice, nor the one that the cursor was on. -/
theorem Approaches.nodup {js : List (Fin (n + 1))} (h : Approaches i c js) : (c :: js).Nodup := by
  induction js generalizing c with
  | nil => exact List.nodup_singleton c
  | cons k js ih =>
    refine List.nodup_cons.mpr ⟨fun hc => ?_, ih h.2⟩
    exact lt_irrefl _ (h.lt c hc)

end Fairness

end PiPervisor.Library.RoundRobin
