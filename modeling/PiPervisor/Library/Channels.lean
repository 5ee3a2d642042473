import PiPervisor.Library.Transition

/-! # Sequential processes over FIFO channels

Two processes send each other symbols over two channels. A process is sequential: its
state says whether it sends, waits for a symbol or stops. The order in which the two
take their steps then does not matter: all schedules that go on until nobody can move
are equally long and end in the same state.
-/
namespace PiPervisor.Library.Channels
open Transition

variable {α σ τ : Type*}

/-- What a process does in a state: it may also wait for a symbol without taking it. -/
inductive Act (α σ : Type*) where
  | stop
  | silent (next : σ)
  | put (symbol : α) (next : σ)
  | get (next : α → σ)
  | look (next : σ)

namespace Act

def map (f : σ → τ) : Act α σ → Act α τ
  | stop => stop
  | silent next => silent (f next)
  | put symbol next => put symbol (f next)
  | get next => get fun symbol => f (next symbol)
  | look next => look (f next)

/-- The next state, what is left of the input, and the output. -/
def step : Act α σ → List α → Option (σ × List α × List α)
  | stop, _ => none
  | silent next, input => some (next, input, [])
  | put symbol next, input => some (next, input, [symbol])
  | get _, [] => none
  | get next, symbol :: input => some (next symbol, input, [])
  | look _, [] => none
  | look next, symbol :: input => some (next, symbol :: input, [])

theorem step_map (f : σ → τ) (a : Act α σ) (input : List α) :
    (a.map f).step input = (a.step input).map fun r => (f r.1, r.2) := by
  cases a <;> cases input <;> rfl

/-- More input does not take a step away. -/
theorem step_append {a : Act α σ} {input input' output : List α} {next : σ}
    (h : a.step input = some (next, input', output)) (more : List α) :
    a.step (input ++ more) = some (next, input' ++ more, output) := by
  cases a <;> cases input <;> cases h <;> rfl

/-- Only the lack of input can delay a step. -/
theorem step_of_append {a : Act α σ} {input more : List α} {r : σ × List α × List α}
    (h : a.step (input ++ more) = some r) : (a.step input).isSome ∨ input = [] ∧ more ≠ [] := by
  cases input with
  | cons symbol input => cases a <;> first | exact .inl rfl | cases h
  | nil =>
    cases more with
    | nil => exact .inl (Option.isSome_iff_exists.mpr ⟨r, h⟩)
    | cons symbol more => exact .inr ⟨rfl, List.cons_ne_nil _ _⟩

theorem step_output_length {a : Act α σ} {input input' output : List α} {next : σ}
    (h : a.step input = some (next, input', output)) : output.length ≤ 1 := by
  cases a <;> cases input <;> cases h <;> simp

end Act

section Solo
variable {act : σ → Act α σ} {s s' s'' : σ} {input input' input'' output output' : List α}

/-- A process by itself goes from `s` to `s'`; it leaves `input'` of the input. -/
inductive Solo (act : σ → Act α σ) : σ → List α → σ → List α → List α → Prop
  | refl (s : σ) (input : List α) : Solo act s input s input []
  | head {s s' s'' : σ} {input input' input'' output output' : List α}
      (h : (act s).step input = some (s', input', output))
      (rest : Solo act s' input' s'' input'' output') :
      Solo act s input s'' input'' (output ++ output')

theorem Solo.trans (h : Solo act s input s' input' output)
    (h' : Solo act s' input' s'' input'' output') :
    Solo act s input s'' input'' (output ++ output') := by
  induction h with
  | refl => exact h'
  | head hstep _ ih =>
    rw [List.append_assoc]
    exact .head hstep (ih h')

theorem Solo.silent (h : act s = .silent s') (h' : Solo act s' input s'' input' output) :
    Solo act s input s'' input' output :=
  .head (show (act s).step input = some (s', input, []) by rw [h]; rfl) h'

theorem Solo.get {next : α → σ} {symbol : α} (h : act s = .get next)
    (h' : Solo act (next symbol) input s'' input' output) :
    Solo act s (symbol :: input) s'' input' output :=
  .head (show (act s).step (symbol :: input) = some (next symbol, input, []) by rw [h]; rfl) h'

theorem Solo.put {symbol : α} (h : act s = .put symbol s')
    (h' : Solo act s' input s'' input' output) :
    Solo act s input s'' input' (symbol :: output) :=
  .head (show (act s).step input = some (s', input, [symbol]) by rw [h]; rfl) h'

theorem Solo.look {symbol : α} (h : act s = .look s')
    (h' : Solo act s' (symbol :: input) s'' input' output) :
    Solo act s (symbol :: input) s'' input' output :=
  .head (show (act s).step (symbol :: input) = some (s', symbol :: input, []) by rw [h]; rfl) h'

/-- A process has one way to go. -/
theorem Solo.total (h : Solo act s input s' input' output)
    (h' : Solo act s input s'' input'' output') :
    (∃ out, Solo act s' input' s'' input'' out ∧ output' = output ++ out) ∨
      ∃ out, Solo act s'' input'' s' input' out ∧ output = output' ++ out := by
  induction h generalizing output' with
  | refl => exact .inl ⟨output', h', rfl⟩
  | head hstep hrest ih =>
    cases h' with
    | refl => exact .inr ⟨_, .head hstep hrest, rfl⟩
    | head hstep' hrest' =>
      obtain ⟨rfl, h2⟩ := Prod.mk.inj (Option.some.inj (hstep.symm.trans hstep'))
      obtain ⟨rfl, rfl⟩ := Prod.mk.inj h2
      rcases ih hrest' with ⟨out, hout, he⟩ | ⟨out, hout, he⟩
      · exact .inl ⟨out, hout, by rw [he, List.append_assoc]⟩
      · exact .inr ⟨out, hout, by rw [he, List.append_assoc]⟩

/-- If it has stopped, or waits in vain, that is the end of every way. -/
theorem Solo.of_stuck (h : Solo act s input s' input' output)
    (h' : Solo act s input s'' input'' output') (hstuck : (act s').step input' = none) :
    ∃ out, Solo act s'' input'' s' input' out ∧ output = output' ++ out := by
  rcases h.total h' with ⟨out, hout, he⟩ | hrest
  · cases hout with
    | refl => exact ⟨[], .refl _ _, by rw [he, List.append_nil, List.append_nil]⟩
    | head hstep _ =>
      rw [hstuck] at hstep
      cases hstep
  · exact hrest

end Solo

section Link

/-- Two processes with the symbols that are on their way. -/
@[ext]
structure Link (α σ τ : Type*) where
  left : σ
  right : τ
  toLeft : List α
  toRight : List α

inductive Side where
  | left
  | right
  deriving DecidableEq

variable (act : σ → Act α σ) (act' : τ → Act α τ)

def Link.step (l : Link α σ τ) : Side → Option (Link α σ τ)
  | .left => ((act l.left).step l.toLeft).map fun (s, input, output) =>
    { left := s, right := l.right, toLeft := input, toRight := l.toRight ++ output }
  | .right => ((act' l.right).step l.toRight).map fun (s, input, output) =>
    { left := l.left, right := s, toLeft := l.toLeft ++ output, toRight := input }

variable {act act'} {l l1 l2 : Link α σ τ}

theorem Link.step_left_right (h1 : l.step act act' .left = some l1)
    (h2 : l.step act act' .right = some l2) :
    ∃ l3, l1.step act act' .right = some l3 ∧ l2.step act act' .left = some l3 := by
  obtain ⟨⟨s1, in1, out1⟩, hs1, rfl⟩ := Option.map_eq_some_iff.mp h1
  obtain ⟨⟨s2, in2, out2⟩, hs2, rfl⟩ := Option.map_eq_some_iff.mp h2
  refine ⟨⟨s1, s2, in1 ++ out2, in2 ++ out1⟩, ?_, ?_⟩
  · exact Option.map_eq_some_iff.mpr ⟨_, Act.step_append hs2 out1, rfl⟩
  · exact Option.map_eq_some_iff.mpr ⟨_, Act.step_append hs1 out2, rfl⟩

/-- The steps of the two processes commute. -/
theorem Link.step_commutes {e e' : Side} (hne : e ≠ e') (h1 : l.step act act' e = some l1)
    (h2 : l.step act act' e' = some l2) :
    ∃ l3, l1.step act act' e' = some l3 ∧ l2.step act act' e = some l3 := by
  cases e <;> cases e'
  · exact absurd rfl hne
  · exact step_left_right h1 h2
  · obtain ⟨l3, h3, h3'⟩ := step_left_right h2 h1
    exact ⟨l3, h3', h3⟩
  · exact absurd rfl hne

/-- Some schedule leads from `l` to `l'`. -/
def Link.Leads (act : σ → Act α σ) (act' : τ → Act α τ) (l l' : Link α σ τ) : Prop :=
  ∃ es, run (Link.step act act') l es = some l'

theorem Link.Leads.trans (h : Leads act act' l l1) (h' : Leads act act' l1 l2) :
    Leads act act' l l2 := by
  obtain ⟨es, hes⟩ := h
  obtain ⟨es', hes'⟩ := h'
  refine ⟨es ++ es', ?_⟩
  rw [run_append, hes]
  exact hes'

/-- One process may go on by itself. -/
theorem Link.leads_left {s s' : σ} {input input' output : List α}
    (h : Solo act s input s' input' output) (t : τ) (toRight : List α) :
    Leads act act' ⟨s, t, input, toRight⟩ ⟨s', t, input', toRight ++ output⟩ := by
  induction h generalizing toRight with
  | refl => exact ⟨[], by rw [List.append_nil, run_nil]⟩
  | head hstep _ ih =>
    obtain ⟨es, hes⟩ := ih (toRight ++ _)
    refine ⟨.left :: es, ?_⟩
    rw [run_cons, Link.step, hstep, Option.map_some, Option.bind_some, hes, List.append_assoc]

theorem Link.leads_right {t t' : τ} {input input' output : List α}
    (h : Solo act' t input t' input' output) (s : σ) (toLeft : List α) :
    Leads act act' ⟨s, t, toLeft, input⟩ ⟨s, t', toLeft ++ output, input'⟩ := by
  induction h generalizing toLeft with
  | refl => exact ⟨[], by rw [List.append_nil, run_nil]⟩
  | head hstep _ ih =>
    obtain ⟨es, hes⟩ := ih (toLeft ++ _)
    refine ⟨.right :: es, ?_⟩
    rw [run_cons, Link.step, hstep, Option.map_some, Option.bind_some, hes, List.append_assoc]

end Link

end PiPervisor.Library.Channels
