import PiPervisor.Hv.SchedRefinement

/-! # Round-robin fairness

While a guest is runnable and waits for its turn, every other guest gets at most one,
and the machine does not idle: each switch brings the cursor nearer to the waiting guest,
and nothing else moves the cursor.
-/
namespace PiPervisor.Hv
open Library.RoundRobin

variable {P : Platform} {b : Boot P} {k : VcpuIdx P} {r r' : RunState P} {t : Trap}

/-- The vCPUs that `hv_scheduler_switch_to` is called for while the traps are handled. -/
def RunState.dispatched (r : RunState P) : List Trap → List (VcpuIdx P)
  | [] => []
  | t :: ts =>
    match r.step t with
    | none => []
    | some r' => (r.dispatch t).toList ++ r'.dispatched ts

/-- All the traps are handled, and vCPU `k` is runnable after each of them. -/
def RunState.Waits (k : VcpuIdx P) (r : RunState P) : List Trap → Prop
  | [] => True
  | t :: ts =>
    match r.step t with
    | none => False
    | some r' => (r'.hyp.vcpu k).state = .runnable ∧ r'.Waits k ts

instance RunState.decidableWaits (k : VcpuIdx P) :
    (r : RunState P) → (ts : List Trap) → Decidable (r.Waits k ts)
  | _, [] => .isTrue trivial
  | r, t :: ts =>
    match h : r.step t with
    | none => .isFalse fun hw => by
      rw [Waits, h] at hw
      exact hw
    | some r' =>
      have := r'.decidableWaits k ts
      decidable_of_iff ((r'.hyp.vcpu k).state = .runnable ∧ r'.Waits k ts) (by rw [Waits, h])

/-- The handlers make exactly the switches of the list. -/
def RunState.SwitchesTo (r : RunState P) : List Trap → List (VcpuIdx P) → Prop
  | [], js => js = []
  | t :: ts, js => ∃ r' js', r.step t = some r' ∧ js = (r.dispatch t).toList ++ js' ∧
      SwitchedTo (takeTrap r.hyp t) (r.dispatch t) r'.hyp ∧ r'.SwitchesTo ts js'

theorem RunState.Waits.step {ts : List Trap} (hw : r.Waits k (t :: ts)) :
    ∃ r', r.step t = some r' ∧ (r'.hyp.vcpu k).state = .runnable ∧ r'.Waits k ts := by
  rw [Waits] at hw
  rcases hstep : r.step t with - | r' <;> rw [hstep] at hw
  · exact hw.elim
  · exact ⟨r', rfl, hw⟩

theorem RunState.dispatched_cons (h : r.step t = some r') (ts : List Trap) :
    r.dispatched (t :: ts) = (r.dispatch t).toList ++ r'.dispatched ts := by
  rw [dispatched, h]

/-- The moves of the cursor during one step of a run in which a guest waits. -/
theorem Running.approaches_step (hi : Running b r) (h : r.step t = some r')
    (hk : k ≠ hvIdleVcpuIdx P) (hrun : (r'.hyp.vcpu k).state = .runnable)
    {js : List (VcpuIdx P)} (hjs : Approaches k r'.sched.cur js) (hidle : hvIdleVcpuIdx P ∉ js) :
    Approaches k r.sched.cur ((r.dispatch t).toList ++ js) ∧
      hvIdleVcpuIdx P ∉ (r.dispatch t).toList ++ js := by
  have hsched := hi.sched_step h
  have hready : ((r.sched.react (r.request t)).status k).state = .runnable := by
    rw [← hsched]
    exact hrun
  have hmove := r.sched.react_approaches (r.request t) hk hready
  rw [← hsched] at hmove
  have hdispatch : r.sched.dispatch (r.request t) = r.dispatch t := rfl
  rw [hdispatch] at hmove
  rcases hd : r.dispatch t with - | j
  · rw [hd] at hmove
    rw [← hmove]
    exact ⟨hjs, hidle⟩
  · rw [hd] at hmove
    obtain ⟨hcur, hj, hnear⟩ := hmove
    refine ⟨⟨hnear, hcur ▸ hjs⟩, fun hmem => ?_⟩
    rcases List.mem_cons.mp hmem with he | hmem
    · exact hj he.symm
    · exact hidle hmem

theorem Running.approaches (hi : Running b r) (hk : k ≠ hvIdleVcpuIdx P) {ts : List Trap}
    (hw : r.Waits k ts) :
    Approaches k r.sched.cur (r.dispatched ts) ∧ hvIdleVcpuIdx P ∉ r.dispatched ts := by
  induction ts generalizing r with
  | nil => exact ⟨trivial, List.not_mem_nil⟩
  | cons t ts ih =>
    obtain ⟨r', hstep, hrun, hw⟩ := hw.step
    obtain ⟨hjs, hidle⟩ := ih (hi.step hstep) hw
    rw [r.dispatched_cons hstep]
    exact hi.approaches_step hstep hk hrun hjs hidle

theorem Running.switchesTo (hi : Running b r) {ts : List Trap} (hw : r.Waits k ts) :
    r.SwitchesTo ts (r.dispatched ts) := by
  induction ts generalizing r with
  | nil => rfl
  | cons t ts ih =>
    obtain ⟨r', hstep, -, hw⟩ := hw.step
    exact ⟨r', r'.dispatched ts, hstep, r.dispatched_cons hstep ts, (hi.reacts hstep).switched,
      ih (hi.step hstep) hw⟩

/-- The vCPU that runs when the wait begins does not get another turn either. -/
theorem waiting_guest_fair (b : Boot P) (before ts : List Trap) (r : RunState P) (i : VmIdx P)
    (hrun : b.run before = some r) (hw : r.Waits i.castSucc ts) :
    r.SwitchesTo ts (r.dispatched ts) ∧ hvIdleVcpuIdx P ∉ r.dispatched ts ∧
      (r.sched.cur :: r.dispatched ts).Nodup := by
  have hi := b.run_running hrun
  obtain ⟨happroaches, hidle⟩ := hi.approaches (castSucc_ne_idle i) hw
  exact ⟨hi.switchesTo hw, hidle, happroaches.nodup⟩

/-- The first guest yields, and waits while the second asks for the time. -/
theorem waiting_guest_fair_first : ∃ r, (twoGuests 0).run [] = some r ∧
    r.dispatched [hypercallTrap hypercallYield 0, hypercallTrap hypercallTimerGetTicks 0] = [1] ∧
    (r.sched.cur :: r.dispatched
      [hypercallTrap hypercallYield 0, hypercallTrap hypercallTimerGetTicks 0]).Nodup := by
  have heval : ((twoGuests 0).run []).map (fun r =>
      let ts := [hypercallTrap hypercallYield 0, hypercallTrap hypercallTimerGetTicks 0]
      (decide (r.Waits 0 ts), r.dispatched ts)) = some (true, [1]) := by
    decide +kernel
  obtain ⟨r, hr, he⟩ := Option.map_eq_some_iff.mp heval
  obtain ⟨hw, hd⟩ := Prod.mk.inj he
  exact ⟨r, hr, hd,
    (waiting_guest_fair (twoGuests 0) _ _ r (firstVm _) hr (of_decide_eq_true hw)).2.2⟩

end PiPervisor.Hv
