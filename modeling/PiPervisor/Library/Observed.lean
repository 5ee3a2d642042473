import Mathlib.Computability.StateTransition

/-! # Runs with labels that show

A step shows a label or is silent, and a run shows the labels of its steps.
-/
namespace PiPervisor.Library.Observed
open StateTransition

variable {S A : Type*} {step : Option A → S → S → Prop}

/-- The runs of a system, with the labels that show. -/
inductive Runs (step : Option A → S → S → Prop) : S → List A → S → Prop
  | refl (s : S) : Runs step s [] s
  | tail {s s1 s2 : S} {as : List A} {l : Option A} (h : Runs step s as s1)
      (hstep : step l s1 s2) : Runs step s (as ++ l.toList) s2

variable {s s1 s2 : S} {as bs : List A}

theorem Runs.silent (h : Runs step s as s1) (hstep : step none s1 s2) : Runs step s as s2 := by
  have hrun := h.tail hstep
  rwa [Option.toList_none, List.append_nil] at hrun

theorem Runs.trans (h : Runs step s as s1) (h' : Runs step s1 bs s2) :
    Runs step s (as ++ bs) s2 := by
  induction h' with
  | refl => rwa [List.append_nil]
  | tail _ hstep ih =>
    rw [← List.append_assoc]
    exact ih.tail hstep

/-- A step on the way to an end leads on to the end. -/
theorem reaches_of_step {T : Type*} {f : T → Option T} {t t' e : T} (h : Reaches f t e)
    (hstep : f t = some t') (he : f e = none) : Reaches f t' e := by
  rcases h.cases_head with rfl | ⟨t1, h1, h⟩
  · rw [he] at hstep
    cases hstep
  · obtain rfl := Option.mem_unique h1 hstep
    exact h

/-- The steps of a machine whose state is a part of the whole, all of them silent. -/
theorem Runs.reaches {T : Type*} {f : T → Option T} {put : T → S}
    (hf : ∀ t t', f t = some t' → step none (put t) (put t')) {t t' : T} (h : Reaches f t t') :
    Runs step (put t) [] (put t') := by
  induction h with
  | refl => exact .refl _
  | tail _ hstep ih => exact ih.silent (hf _ _ hstep)

/-- A relation between what has shown and the state holds if each step keeps it. -/
theorem Runs.invariant {R : List A → S → Prop}
    (hstep : ∀ as s s' l, R as s → step l s s' → R (as ++ l.toList) s') (hs : R [] s)
    (h : Runs step s as s1) : R as s1 := by
  induction h with
  | refl => exact hs
  | tail _ hlast ih => exact hstep _ _ _ _ ih hlast

end PiPervisor.Library.Observed
