import Mathlib.Data.List.Basic
import Mathlib.Logic.Function.Basic
import Mathlib.Tactic.Common

/-! # Runs of deterministic machines and of transition systems

`exec` runs a list of commands and collects the results; two machines that
simulate each other in lockstep give the same results. `interleave` runs many
machines side by side, and each gives the results it gives alone. `run` takes
a system through a sequence of events of which some may be impossible; an
invariant is proved by one step.
-/
namespace PiPervisor.Library.Transition

section Machine
variable {σ τ ι ο : Type*}

/-- Run the commands in order and collect their results. -/
def exec (step : σ → ι → ο × σ) : σ → List ι → List ο × σ
  | s, [] => ([], s)
  | s, i :: is =>
    let (o, s') := step s i
    let (os, s'') := exec step s' is
    (o :: os, s'')

@[simp] theorem exec_cons (step : σ → ι → ο × σ) (s : σ) (i : ι) (is : List ι) :
    exec step s (i :: is) =
      ((step s i).1 :: (exec step (step s i).2 is).1, (exec step (step s i).2 is).2) := rfl

/-- Lockstep simulation: equal results, related final states. -/
theorem exec_simulates {step : σ → ι → ο × σ} {step' : τ → ι → ο × τ} {R : σ → τ → Prop}
    (hstep : ∀ s t i, R s t → (step s i).1 = (step' t i).1 ∧ R (step s i).2 (step' t i).2)
    (s : σ) (t : τ) (is : List ι) (h : R s t) :
    (exec step s is).1 = (exec step' t is).1 ∧ R (exec step s is).2 (exec step' t is).2 := by
  induction is generalizing s t with
  | nil => exact ⟨rfl, h⟩
  | cons i is ih =>
    obtain ⟨ho, hr⟩ := hstep s t i h
    obtain ⟨hos, hr'⟩ := ih _ _ hr
    exact ⟨by simp only [exec_cons, ho, hos], hr'⟩

/-- What every command preserves holds after a sequence of them. -/
theorem exec_invariant {step : σ → ι → ο × σ} {P : σ → Prop} (hstep : ∀ s i, P s → P (step s i).2)
    {s : σ} (is : List ι) (h : P s) : P (exec step s is).2 := by
  induction is generalizing s with
  | nil => exact h
  | cons i is ih => exact ih (hstep s i h)

section Interleave
variable {κ : Type*} [DecidableEq κ]

/-- Machines side by side; a command names the machine it is for. -/
def interleave (step : σ → ι → ο × σ) (s : κ → σ) (i : κ × ι) : ο × (κ → σ) :=
  ((step (s i.1) i.2).1, Function.update s i.1 (step (s i.1) i.2).2)

/-- The commands for one machine. -/
def own (k : κ) (is : List (κ × ι)) : List (κ × ι) := is.filter (·.1 = k)

/-- The results of the commands for one machine. -/
def ownResults (k : κ) (is : List (κ × ι)) (os : List ο) : List ο :=
  ((is.zip os).filter (·.1.1 = k)).map Prod.snd

theorem ownResults_cons (k : κ) (i : κ × ι) (is : List (κ × ι)) (o : ο) (os : List ο) :
    ownResults k (i :: is) (o :: os) =
      if i.1 = k then o :: ownResults k is os else ownResults k is os := by
  simp only [ownResults, List.zip_cons_cons, List.filter_cons, decide_eq_true_eq]
  split <;> rfl

/-- A machine's results and final state are those of its own commands alone. -/
theorem exec_interleave_own (step : σ → ι → ο × σ) (k : κ) (s s' : κ → σ) (is : List (κ × ι))
    (h : s k = s' k) :
    ownResults k is (exec (interleave step) s is).1 = (exec (interleave step) s' (own k is)).1 ∧
      (exec (interleave step) s is).2 k = (exec (interleave step) s' (own k is)).2 k := by
  induction is generalizing s s' with
  | nil => exact ⟨rfl, h⟩
  | cons i is ih =>
    rw [exec_cons, ownResults_cons]
    by_cases hk : i.1 = k
    · have hown : own k (i :: is) = i :: own k is := List.filter_cons_of_pos (by simpa using hk)
      have hnext : (interleave step s i).2 k = (interleave step s' i).2 k := by
        simp only [interleave, hk, Function.update_self, h]
      obtain ⟨hr, hs⟩ := ih _ _ hnext
      rw [if_pos hk, hown, exec_cons, hr]
      refine ⟨?_, hs⟩
      simp only [interleave, hk, h]
    · have hown : own k (i :: is) = own k is := List.filter_cons_of_neg (by simpa using hk)
      have hnext : (interleave step s i).2 k = s' k :=
        (Function.update_of_ne (fun e => hk e.symm) _ _).trans h
      rw [if_neg hk, hown]
      exact ih _ _ hnext

end Interleave

end Machine

section System
variable {σ ε : Type*}

/-- The state after a sequence of events, if each of them is possible. -/
def run (step : σ → ε → Option σ) (s : σ) (es : List ε) : Option σ := es.foldlM step s

@[simp] theorem run_nil (step : σ → ε → Option σ) (s : σ) : run step s [] = some s := rfl

@[simp] theorem run_cons (step : σ → ε → Option σ) (s : σ) (e : ε) (es : List ε) :
    run step s (e :: es) = (step s e).bind fun s' => run step s' es := List.foldlM_cons ..

theorem run_append (step : σ → ε → Option σ) (s : σ) (es es' : List ε) :
    run step s (es ++ es') = (run step s es).bind fun s' => run step s' es' :=
  List.foldlM_append ..

/-- What every possible event preserves holds in every state reached. -/
theorem run_invariant {step : σ → ε → Option σ} {P : σ → Prop}
    (hstep : ∀ s e s', P s → step s e = some s' → P s') {s s' : σ} {es : List ε} (h : P s)
    (hr : run step s es = some s') : P s' := by
  induction es generalizing s with
  | nil => exact Option.some.inj hr ▸ h
  | cons e es ih =>
    rw [run_cons, Option.bind_eq_some_iff] at hr
    obtain ⟨t, ht, hr⟩ := hr
    exact ih (hstep s e t h ht) hr

section Confluence
variable {step : σ → ε → Option σ}
  (hc : ∀ s e e' s1 s2, e ≠ e' → step s e = some s1 → step s e' = some s2 →
    ∃ s3, step s1 e' = some s3 ∧ step s2 e = some s3)
include hc

/-- If the events commute, one of them can be brought to the front of a run to the end. -/
theorem exists_run_of_step {s s1 t : σ} {e : ε} {es : List ε} (he : step s e = some s1)
    (hr : run step s es = some t) (hend : ∀ e, step t e = none) :
    ∃ es', run step s1 es' = some t ∧ es'.length + 1 = es.length := by
  induction es generalizing s s1 with
  | nil =>
    obtain rfl := Option.some.inj hr
    rw [hend e] at he
    cases he
  | cons e' es ih =>
    rw [run_cons, Option.bind_eq_some_iff] at hr
    obtain ⟨s', hs', hr⟩ := hr
    by_cases hee : e = e'
    · subst hee
      obtain rfl := Option.some.inj (he.symm.trans hs')
      exact ⟨es, hr, rfl⟩
    · obtain ⟨s3, h3, h3'⟩ := hc s e e' s1 s' hee he hs'
      obtain ⟨es', hes', hlen⟩ := ih h3' hr
      refine ⟨e' :: es', ?_, congrArg (· + 1) hlen⟩
      rw [run_cons, h3, Option.bind_some, hes']

/-- All runs are parts of runs to the same end, and these are equally long. -/
theorem exists_run_of_run {s t u : σ} {es es' : List ε} (hr : run step s es = some t)
    (hend : ∀ e, step t e = none) (hr' : run step s es' = some u) :
    ∃ more, run step u more = some t ∧ es'.length + more.length = es.length := by
  induction es' generalizing s es with
  | nil =>
    obtain rfl := Option.some.inj hr'
    exact ⟨es, hr, Nat.zero_add _⟩
  | cons e es' ih =>
    rw [run_cons, Option.bind_eq_some_iff] at hr'
    obtain ⟨s1, hs1, hr'⟩ := hr'
    obtain ⟨es1, hes1, hlen⟩ := exists_run_of_step hc hs1 hr hend
    obtain ⟨more, hmore, hlen'⟩ := ih hes1 hr'
    refine ⟨more, hmore, ?_⟩
    rw [List.length_cons]
    omega

end Confluence

end System

end PiPervisor.Library.Transition
