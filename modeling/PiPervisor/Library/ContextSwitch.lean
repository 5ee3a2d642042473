import Mathlib.Logic.Function.Basic
import Mathlib.Tactic.Common

/-! # One set of registers shared by many threads

The registers hold the context of the current thread; the contexts of the others
are saved. A switch saves the registers and loads those of the next thread, so
it changes no thread's context; only a write to the live registers does, and
only that of the current thread.
-/
namespace PiPervisor.Library.ContextSwitch

variable {ι γ : Type*}

structure Registers (ι γ : Type*) where
  current : Option ι
  live : γ
  saved : ι → γ

namespace Registers
variable [DecidableEq ι]

/-- The context of a thread, wherever it is. -/
def context (r : Registers ι γ) (k : ι) : γ := if r.current = some k then r.live else r.saved k

/-- The saved contexts once the current thread's is among them. -/
def save (r : Registers ι γ) : ι → γ :=
  match r.current with
  | none => r.saved
  | some i => Function.update r.saved i r.live

def switchTo (r : Registers ι γ) (j : ι) : Registers ι γ where
  current := some j
  live := r.save j
  saved := r.save

def write (r : Registers ι γ) (c : γ) : Registers ι γ := { r with live := c }

theorem save_eq_context (r : Registers ι γ) : r.save = r.context := by
  funext k
  cases hc : r.current with
  | none => simp [save, context, hc]
  | some i =>
    simp only [save, context, hc, Option.some.injEq, Function.update_apply, eq_comm (a := i)]

/-- A switch moves contexts and changes none. -/
@[simp] theorem context_switchTo (r : Registers ι γ) (j : ι) :
    (r.switchTo j).context = r.context := by
  funext k
  rw [context, switchTo, save_eq_context]
  by_cases hk : some j = some k
  · rw [if_pos hk, Option.some.inj hk]
  · rw [if_neg hk]

theorem context_current {r : Registers ι γ} {i : ι} (h : r.current = some i) :
    r.context i = r.live := if_pos h

theorem context_write_of_ne {r : Registers ι γ} {k : ι} (h : r.current ≠ some k) (c : γ) :
    (r.write c).context k = r.context k := by
  rw [context, context, if_neg h]
  exact if_neg h

end Registers

end PiPervisor.Library.ContextSwitch
