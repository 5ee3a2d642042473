import PiPervisor.Loader.Host

/-! # The exchange of the loader and the installer

The loader and the installer take their steps in any order. Bytes for the Pi are on the
line until they arrive, and the loader repeats its request each time it has waited in
vain. An exchange with a given number of repetitions follows one of two sequential
processes over FIFO channels, which all end alike.
-/
namespace PiPervisor.Loader
open Library.Channels Library.Transition

section Exchange

structure Exchange where
  pi : PiState
  host : HostPc
  /-- Bytes for the Pi that have not arrived. -/
  line : List Byte
  /-- Bytes that the Pi has not read. -/
  rx : List Byte
  toHost : List Byte

/-- What can happen next. The loader repeats its request only after it has looked for data. -/
inductive Event where
  | pi
  | timeout
  | host
  | arrive
  deriving DecidableEq

/-- The Pi is switched on, and the installer is started, with `junk` on the line. -/
def Exchange.initial (junk : List Byte) : Exchange where
  pi := ⟨askForProgram, []⟩
  host := .getOp false []
  line := junk
  rx := []
  toHost := []

variable (start stop addr : BitVec 32) (buf : List Byte)

def Exchange.step (x : Exchange) : Event → Option Exchange
  | .pi => ((x.pi.act start stop).step x.rx).map fun (s, rx, output) =>
    { x with pi := s, rx := rx, toHost := x.toHost ++ output }
  | .timeout =>
    if x.pi.pc = .poll ∧ x.rx = [] then some { x with pi := { x.pi with pc := askForProgram } }
    else none
  | .host => ((x.host.act addr buf).step x.toHost).map fun (s, toHost, output) =>
    { x with host := s, toHost := toHost, line := x.line ++ output }
  | .arrive =>
    match x.line with
    | [] => none
    | byte :: line => some { x with line := line, rx := x.rx ++ [byte] }

/-- However the steps are mixed, the exchange ends, and it ends well: with a given number of
repeated requests it does not go on forever, and as long as the end is not reached, something
other than a timeout can happen. -/
def Completes (x : Exchange) (Good : Exchange → Prop) : Prop :=
  (∀ k, ∃ bound, ∀ es y, run (Exchange.step start stop addr buf) x es = some y →
    es.count .timeout = k → es.length ≤ bound) ∧
  ∀ es y, run (Exchange.step start stop addr buf) x es = some y →
    Good y ∨ ∃ e, e ≠ .timeout ∧ (y.step start stop addr buf e).isSome

end Exchange

section Patience
variable (start stop addr : BitVec 32) (buf : List Byte)

/-- A loader that knows beforehand how often it will repeat its request. -/
def patient (s : PiState × ℕ) : Act Byte (PiState × ℕ) :=
  if s.1.pc = .poll ∧ s.2 ≠ 0 then .silent ({ s.1 with pc := askForProgram }, s.2 - 1)
  else (s.1.act start stop).map fun next => (next, s.2)

abbrev PatientLink := Link Byte (PiState × ℕ) HostPc

/-- The exchange with such a loader; all that was sent to it is one queue. -/
def Exchange.abs (x : Exchange) (repeats : ℕ) : PatientLink where
  left := (x.pi, repeats)
  right := x.host
  toLeft := x.rx ++ x.line
  toRight := x.toHost

/-- The loader has seen data. -/
def PiPc.listens : PiPc → Bool
  | put _ next => next.listens
  | waitForOpcode _ _ _ next => next.listens
  | poll => false
  | _ => true

variable {start stop addr buf} {x y : Exchange} {e : Event} {es : List Event}

theorem listens_answer (info : ProgInfo) : (answer start stop info).listens = true := by
  rw [answer]
  split <;> rfl

theorem listens_act {s s' : PiState} {input input' output : List Byte}
    (hs : s.pc = .poll ∨ s.pc.listens = true)
    (h : (s.act start stop).step input = some (s', input', output)) : s'.pc.listens = true := by
  cases PiState.moves_of_step h with
  | sent | send | slide _ _ | found _ => exact hs.resolve_left nofun
  | see | receive _ _ | store _ _ | report _ => rfl
  | answer _ => exact listens_answer _
  | leave =>
    dsimp only
    split <;> rfl

/-- A loader that has seen data has no more timeouts. -/
theorem Exchange.listens_step (hx : x.pi.pc.listens = true)
    (h : x.step start stop addr buf e = some y) : e ≠ .timeout ∧ y.pi.pc.listens = true := by
  cases e with
  | pi =>
    obtain ⟨⟨s, rx, output⟩, hs, rfl⟩ := Option.map_eq_some_iff.mp h
    exact ⟨by simp, listens_act (.inr hx) hs⟩
  | timeout =>
    rw [step] at h
    split at h
    · rename_i hpoll
      rw [hpoll.1] at hx
      cases hx
    · cases h
  | host =>
    obtain ⟨⟨s, toHost, output⟩, -, rfl⟩ := Option.map_eq_some_iff.mp h
    exact ⟨by simp, hx⟩
  | arrive =>
    rw [step] at h
    rcases hl : x.line with - | ⟨byte, line⟩ <;> rw [hl] at h
    · cases h
    · obtain rfl := Option.some.inj h
      exact ⟨by simp, hx⟩

theorem Exchange.count_timeout_of_listens (hx : x.pi.pc.listens = true)
    (h : run (Exchange.step start stop addr buf) x es = some y) : es.count .timeout = 0 := by
  induction es generalizing x with
  | nil => rfl
  | cons e es ih =>
    rw [run_cons, Option.bind_eq_some_iff] at h
    obtain ⟨x1, h1, h⟩ := h
    obtain ⟨hne, hx1⟩ := listens_step hx h1
    rw [List.count_cons_of_ne hne, ih hx1 h]

theorem patient_eq {s : PiState × ℕ} (hs : s.1.pc = .poll → s.2 = 0) :
    patient start stop s = (s.1.act start stop).map fun next => (next, s.2) :=
  if_neg fun h => h.2 (hs h.1)

section Steps
variable {repeats : ℕ}

theorem Exchange.abs_step_pi (h : x.step start stop addr buf .pi = some y)
    (hzero : x.pi.pc = .poll → repeats = 0) :
    (x.abs repeats).step (patient start stop) (HostPc.act addr buf) .left =
      some (y.abs repeats) := by
  obtain ⟨⟨s, rx, output⟩, hs, rfl⟩ := Option.map_eq_some_iff.mp h
  rw [Link.step, abs, patient_eq hzero, Act.step_map, Act.step_append hs]
  rfl

theorem Exchange.abs_step_timeout (h : x.step start stop addr buf .timeout = some y) :
    (x.abs (repeats + 1)).step (patient start stop) (HostPc.act addr buf) .left =
      some (y.abs repeats) := by
  rw [step] at h
  split at h
  · rename_i hpoll
    obtain rfl := Option.some.inj h
    rw [Link.step, abs, patient, if_pos ⟨hpoll.1, Nat.succ_ne_zero _⟩]
    exact congrArg some (Link.ext rfl rfl rfl (List.append_nil _))
  · cases h

theorem Exchange.abs_step_host (h : x.step start stop addr buf .host = some y) :
    (x.abs repeats).step (patient start stop) (HostPc.act addr buf) .right =
      some (y.abs repeats) := by
  obtain ⟨⟨s, toHost, output⟩, hs, rfl⟩ := Option.map_eq_some_iff.mp h
  rw [Link.step, abs, hs]
  exact congrArg some (Link.ext rfl rfl (List.append_assoc ..) rfl)

theorem Exchange.abs_step_arrive (h : x.step start stop addr buf .arrive = some y) (repeats : ℕ) :
    x.line.length = y.line.length + 1 ∧ x.abs repeats = y.abs repeats := by
  rw [step] at h
  rcases hl : x.line with - | ⟨byte, line⟩ <;> rw [hl] at h
  · cases h
  · obtain rfl := Option.some.inj h
    refine ⟨rfl, ?_⟩
    rw [abs, abs, hl, List.append_assoc]
    rfl

end Steps

/-- An exchange follows the link of the patient loader, which does nothing when a byte arrives. -/
theorem Exchange.abs_run (h : run (Exchange.step start stop addr buf) x es = some y) :
    ∃ sides, run (Link.step (patient start stop) (HostPc.act addr buf))
        (x.abs (es.count .timeout)) sides = some (y.abs 0) ∧
      sides.length + es.count .arrive = es.length := by
  induction es generalizing x with
  | nil =>
    obtain rfl := Option.some.inj h
    exact ⟨[], rfl, rfl⟩
  | cons e es ih =>
    rw [run_cons, Option.bind_eq_some_iff] at h
    obtain ⟨x1, h1, h⟩ := h
    obtain ⟨sides, hsides, hlen⟩ := ih h
    have hside {side : Side} {l : PatientLink}
        (hl : l.step (patient start stop) (HostPc.act addr buf) side =
          some (x1.abs (es.count .timeout))) :
        run (Link.step (patient start stop) (HostPc.act addr buf)) l (side :: sides) =
          some (y.abs 0) := by
      rw [run_cons, hl]
      exact hsides
    have hcount (hne : e ≠ .arrive) :
        sides.length + 1 + (e :: es).count .arrive = (e :: es).length := by
      rw [List.count_cons_of_ne hne, List.length_cons]
      omega
    cases e with
    | pi =>
      have hzero : x.pi.pc = .poll → es.count .timeout = 0 := fun hpoll => by
        obtain ⟨⟨s, rx, output⟩, hs, rfl⟩ := Option.map_eq_some_iff.mp h1
        exact count_timeout_of_listens (listens_act (.inl hpoll) hs) h
      rw [List.count_cons_of_ne (by decide)]
      exact ⟨.left :: sides, hside (abs_step_pi h1 hzero), hcount (by decide)⟩
    | timeout =>
      rw [List.count_cons_self]
      exact ⟨.left :: sides, hside (abs_step_timeout h1), hcount (by decide)⟩
    | host =>
      rw [List.count_cons_of_ne (by decide)]
      exact ⟨.right :: sides, hside (abs_step_host h1), hcount (by decide)⟩
    | arrive =>
      rw [List.count_cons_of_ne (by decide), (abs_step_arrive h1 _).2, List.count_cons_self,
        List.length_cons]
      exact ⟨sides, hsides, by omega⟩

/-- No more bytes arrive than were on the line or are sent. -/
theorem Exchange.count_arrive (h : run (Exchange.step start stop addr buf) x es = some y) :
    es.count .arrive ≤ x.line.length + es.count .host := by
  induction es generalizing x with
  | nil => exact Nat.zero_le _
  | cons e es ih =>
    rw [run_cons, Option.bind_eq_some_iff] at h
    obtain ⟨x1, h1, h⟩ := h
    have hrest := ih h
    cases e with
    | pi =>
      obtain ⟨r, -, rfl⟩ := Option.map_eq_some_iff.mp h1
      rw [List.count_cons_of_ne (by decide), List.count_cons_of_ne (by decide)]
      exact hrest
    | timeout =>
      rw [step] at h1
      split at h1
      · obtain rfl := Option.some.inj h1
        rw [List.count_cons_of_ne (by decide), List.count_cons_of_ne (by decide)]
        exact hrest
      · cases h1
    | host =>
      obtain ⟨⟨s, toHost, output⟩, hs, rfl⟩ := Option.map_eq_some_iff.mp h1
      have hone := Act.step_output_length hs
      rw [List.length_append] at hrest
      rw [List.count_cons_of_ne (by decide), List.count_cons_self]
      omega
    | arrive =>
      have hline := (abs_step_arrive h1 0).1
      rw [List.count_cons_self, List.count_cons_of_ne (by decide)]
      omega

/-- When the patient loader or the installer can go on, so can the exchange. -/
theorem Exchange.step_of_abs {side : Side} {l : PatientLink}
    (h : (x.abs 0).step (patient start stop) (HostPc.act addr buf) side = some l) :
    ∃ e, e ≠ .timeout ∧ (x.step start stop addr buf e).isSome := by
  cases side with
  | left =>
    obtain ⟨r, hr, -⟩ := Option.map_eq_some_iff.mp h
    rw [abs, patient_eq fun _ => rfl, Act.step_map] at hr
    obtain ⟨q, hq, -⟩ := Option.map_eq_some_iff.mp hr
    rcases Act.step_of_append hq with hsome | ⟨-, hline⟩
    · exact ⟨.pi, by decide, by rw [step, Option.isSome_map]; exact hsome⟩
    · refine ⟨.arrive, by decide, ?_⟩
      rw [step]
      rcases hl : x.line with - | ⟨byte, line⟩
      · exact absurd hl hline
      · rfl
  | right =>
    obtain ⟨r, hr, -⟩ := Option.map_eq_some_iff.mp h
    refine ⟨.host, by decide, ?_⟩
    rw [step, Option.isSome_map]
    exact Option.isSome_iff_exists.mpr ⟨r, hr⟩

end Patience

end PiPervisor.Loader
