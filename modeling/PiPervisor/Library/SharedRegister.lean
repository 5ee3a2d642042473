import Mathlib.Tactic.Common

/-! # A register that its users share

Users take turns at one register that nobody saves for them. A user finds it as it left it
exactly if what the others have made of it in the meantime, taken together, puts that value
back. If the turns of two histories differ in the writes of another user only, the user
finds the same in both once it has left the same in both at its first turn.
-/
namespace PiPervisor.Library.SharedRegister

/-- A turn of a user, and what it makes of the register. -/
structure Turn (ι α : Type*) where
  user : ι
  writes : α → α

variable {ι α : Type*} [DecidableEq ι] (v0 : α) (i : ι)

/-- The register after the turns, the last of them first. -/
def value : List (Turn ι α) → α
  | [] => v0
  | t :: ts => t.writes (value ts)

/-- What the user left in the register at its last turn. -/
def lastLeft : List (Turn ι α) → Option α
  | [] => none
  | t :: ts => if t.user = i then some (value v0 (t :: ts)) else lastLeft ts

/-- What the user left in the register at its first turn. -/
def firstLeft : List (Turn ι α) → Option α
  | [] => none
  | t :: ts => (firstLeft ts).or (if t.user = i then some (value v0 (t :: ts)) else none)

/-- What the others have made of the register since the last turn of the user. -/
def since : List (Turn ι α) → α → α
  | [] => id
  | t :: ts => if t.user = i then id else t.writes ∘ since ts

variable {v0 i} {t t' : Turn ι α} {ts ts' : List (Turn ι α)} {v : α}

section Cons

theorem lastLeft_of_eq (h : t.user = i) :
    lastLeft v0 i (t :: ts) = some (t.writes (value v0 ts)) := if_pos h

theorem lastLeft_of_ne (h : t.user ≠ i) : lastLeft v0 i (t :: ts) = lastLeft v0 i ts := if_neg h

theorem firstLeft_of_ne (h : t.user ≠ i) : firstLeft v0 i (t :: ts) = firstLeft v0 i ts := by
  rw [firstLeft, if_neg h, Option.or_none]

end Cons

theorem firstLeft_of_lastLeft_none (h : lastLeft v0 i ts = none) : firstLeft v0 i ts = none := by
  induction ts with
  | nil => rfl
  | cons t ts ih =>
    by_cases hi : t.user = i
    · rw [lastLeft_of_eq hi] at h
      cases h
    · rw [lastLeft_of_ne hi] at h
      rw [firstLeft_of_ne hi, ih h]

theorem exists_firstLeft (h : lastLeft v0 i ts = some v) : ∃ w, firstLeft v0 i ts = some w := by
  induction ts with
  | nil => cases h
  | cons t ts ih =>
    by_cases hi : t.user = i
    · rw [firstLeft, if_pos hi]
      rcases firstLeft v0 i ts with - | w
      · exact ⟨_, rfl⟩
      · exact ⟨w, rfl⟩
    · rw [lastLeft_of_ne hi] at h
      rw [firstLeft_of_ne hi]
      exact ih h

/-- The register is what the others have made of the value that the user left in it. -/
theorem value_eq_since (h : lastLeft v0 i ts = some v) : value v0 ts = since i ts v := by
  induction ts with
  | nil => cases h
  | cons t ts ih =>
    by_cases hi : t.user = i
    · rw [lastLeft_of_eq hi] at h
      rw [since, if_pos hi]
      exact Option.some.inj h
    · rw [lastLeft_of_ne hi] at h
      rw [since, if_neg hi]
      exact congrArg t.writes (ih h)

section TwoHistories
variable (v0 i)

/-- The user finds what it left, and the same in both histories. -/
def Found (ts ts' : List (Turn ι α)) : Prop :=
  ∀ v v', lastLeft v0 i ts = some v → lastLeft v0 i ts' = some v' →
    value v0 ts = v ∧ value v0 ts' = v' ∧ value v0 ts = value v0 ts'

/-- The others put back what the user left, and it left the same in both at its first turn. -/
def Kept (ts ts' : List (Turn ι α)) : Prop :=
  ∀ v v', lastLeft v0 i ts = some v → lastLeft v0 i ts' = some v' →
    since i ts v = v ∧ since i ts' v' = v' ∧ firstLeft v0 i ts = firstLeft v0 i ts'

/-- The turns of the user in two histories, as far as it has found the same in both. -/
structure Matched (ts ts' : List (Turn ι α)) : Prop where
  taken : lastLeft v0 i ts = none ↔ lastLeft v0 i ts' = none
  first : firstLeft v0 i ts = firstLeft v0 i ts' ↔ lastLeft v0 i ts = lastLeft v0 i ts'

variable {v0 i}

theorem Matched.nil : Matched v0 i [] [] := ⟨Iff.rfl, Iff.rfl⟩

theorem Matched.found_iff_kept (h : Matched v0 i ts ts') : Found v0 i ts ts' ↔ Kept v0 i ts ts' := by
  refine forall₂_congr fun v v' => forall₂_congr fun hv hv' => ?_
  rw [value_eq_since hv, value_eq_since hv', h.first, hv, hv', Option.some.injEq]
  constructor
  · rintro ⟨hs, hs', he⟩
    exact ⟨hs, hs', hs.symm.trans (he.trans hs')⟩
  · rintro ⟨hs, hs', he⟩
    exact ⟨hs, hs', hs.trans (he.trans hs'.symm)⟩

/-- A turn in both histories; one of the user itself after it has found the same in both. -/
theorem Matched.cons (h : Matched v0 i ts ts') (huser : t.user = t'.user)
    (hown : t.user = i → t.writes = t'.writes ∧ Found v0 i ts ts') :
    Matched v0 i (t :: ts) (t' :: ts') := by
  by_cases hi : t.user = i
  · obtain ⟨hwrites, hfound⟩ := hown hi
    have hi' : t'.user = i := huser ▸ hi
    refine ⟨iff_of_false ?_ ?_, ?_⟩
    · rw [lastLeft_of_eq hi]
      nofun
    · rw [lastLeft_of_eq hi']
      nofun
    rcases hlast : lastLeft v0 i ts with - | v
    · -- the first turn: what the user leaves first is what it leaves last
      have hlast' := h.taken.mp hlast
      rw [firstLeft, firstLeft, firstLeft_of_lastLeft_none hlast,
        firstLeft_of_lastLeft_none hlast', if_pos hi, if_pos hi', lastLeft_of_eq hi,
        lastLeft_of_eq hi']
      exact Iff.rfl
    · obtain ⟨v', hlast'⟩ := Option.ne_none_iff_exists'.mp
        (mt h.taken.mpr fun he => nomatch hlast.symm.trans he)
      obtain ⟨hv, hv', he⟩ := hfound v v' hlast hlast'
      have hfirst : firstLeft v0 i ts = firstLeft v0 i ts' := by
        rw [h.first, hlast, hlast', ← hv, ← hv', he]
      obtain ⟨w, hw⟩ := exists_firstLeft hlast
      refine iff_of_true ?_ ?_
      · rw [firstLeft, firstLeft, ← hfirst, hw, Option.some_or, Option.some_or]
      · rw [lastLeft_of_eq hi, lastLeft_of_eq hi', hwrites, he]
  · have hi' : t'.user ≠ i := huser ▸ hi
    refine ⟨?_, ?_⟩ <;> rw [lastLeft_of_ne hi, lastLeft_of_ne hi']
    · exact h.taken
    · rw [firstLeft_of_ne hi, firstLeft_of_ne hi']
      exact h.first

end TwoHistories

end PiPervisor.Library.SharedRegister
