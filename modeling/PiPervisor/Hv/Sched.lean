import PiPervisor.Library.RoundRobin
import PiPervisor.Hv.Machine
import PiPervisor.Hv.Virq

/-! # Scheduling as a state machine

What the scheduler decides by, and nothing else: which vCPU is current, and the run
state, the virtual interrupts and the timer of each. A handler asks for one of a few
things; it serves the request and, for some of them, lets the scheduler choose the
next vCPU.
-/
namespace PiPervisor.Hv
open Library.RoundRobin

variable {P : Platform}

/-- The part of a vCPU that scheduling depends on. -/
structure VcpuStatus where
  state : HvVcpuState
  virqPending : BitVec 32
  virqActive : BitVec 32
  timer : HvVcpuTimer
  deriving DecidableEq

/-- The timer after a delivery: its next deadline after `now`, or off if it has no period. -/
def HvVcpuTimer.advance (now : BitVec 64) (t : HvVcpuTimer) : HvVcpuTimer :=
  if t.period = 0 then ⟨false, 0, 0⟩
  else { t with deadline := (advanceDeadline now t.period (2 ^ 64) t.deadline).getD t.deadline }

namespace VcpuStatus

/-- Neither an unused slot nor a guest that has exited. -/
def counts (s : VcpuStatus) : Bool := !(s.state == .idle || s.state == .exited)

/-- The deadline counts for the physical timer. -/
def live (s : VcpuStatus) : Bool := s.counts && s.timer.enabled

def expired (now : BitVec 64) (s : VcpuStatus) : Bool := s.live && s.timer.deadline ≤ now

/-- The timer interrupt is pending or active. -/
def timerRaised (s : VcpuStatus) : Bool := s.virqPending.getLsbD 0 || s.virqActive.getLsbD 0

/-- The timer interrupt is raised, unless it is raised already, which wakes the vCPU. -/
def raiseTimer (s : VcpuStatus) : VcpuStatus :=
  if s.timerRaised then s
  else { s with
    virqPending := s.virqPending ||| 1
    state := if s.state = .blocked then .runnable else s.state }

def deliver (now : BitVec 64) (s : VcpuStatus) : VcpuStatus :=
  if s.expired now then { s.raiseTimer with timer := s.timer.advance now } else s

/-- The vCPU gives up the CPU. -/
def demote (isIdle : Bool) (s : VcpuStatus) : VcpuStatus :=
  if s.state = .running then { s with state := if isIdle then .idle else .runnable } else s

end VcpuStatus

/-- What a handler is asked for, by the vCPU that trapped or by an interrupt. -/
inductive Request where
  | resume
  | virqs (pending active : BitVec 32)
  | stop
  | yield
  | delay (now ticks : BitVec 64)
  | wait
  | preempt
  | deliver (now : BitVec 64)
  deriving DecidableEq

/-- The requests that change a deadline, or whether it counts. -/
def Request.rearms : Request → Bool
  | .stop | .delay .. | .deliver _ => true
  | .resume | .virqs .. | .yield | .wait | .preempt => false

structure Sched (P : Platform) where
  cur : VcpuIdx P
  status : VcpuIdx P → VcpuStatus

namespace Sched

def set (s : Sched P) (k : VcpuIdx P) (v : VcpuStatus) : Sched P :=
  { s with status := Function.update s.status k v }

def demote (s : Sched P) : Sched P :=
  s.set s.cur ((s.status s.cur).demote (s.cur == hvIdleVcpuIdx P))

/-- A guest that can run. -/
def ready (s : Sched P) (k : VcpuIdx P) : Bool :=
  !(k == hvIdleVcpuIdx P) && (s.status k).state == .runnable

def pick (s : Sched P) : Option (VcpuIdx P) := (ring s.cur).find? s.ready

def start (s : Sched P) (j : VcpuIdx P) : Sched P where
  cur := j
  status := Function.update s.status j { s.status j with state := .running }

/-- The current vCPU gives up the CPU to the next ready guest, or to the idle vCPU. -/
def choose (s : Sched P) : Sched P := s.demote.start (s.demote.pick.getD (hvIdleVcpuIdx P))

/-- The vCPU that a choice switches to; the idle vCPU stays where it is. -/
def chosen (s : Sched P) : Option (VcpuIdx P) :=
  match s.demote.pick with
  | some next => some next
  | none => if s.cur = hvIdleVcpuIdx P then none else some (hvIdleVcpuIdx P)

/-- What a handler does before any choice. -/
def serve (s : Sched P) : Request → Sched P
  | .resume | .yield | .preempt => s
  | .virqs pending active =>
    s.set s.cur { s.status s.cur with virqPending := pending, virqActive := active }
  | .stop => s.set s.cur { s.status s.cur with state := .exited, timer := ⟨false, 0, 0⟩ }
  | .delay now ticks => s.set s.cur { s.status s.cur with
      state := .blocked
      timer := { (s.status s.cur).timer with enabled := true, deadline := now + ticks } }
  | .wait => s.set s.cur { s.status s.cur with state := .blocked }
  | .deliver now =>
    { s with
      status := fun k => if k = hvIdleVcpuIdx P then s.status k else (s.status k).deliver now }

/-- The requests after which the scheduler chooses; a timer interrupt preempts no guest. -/
def chooses (s : Sched P) : Request → Bool
  | .resume | .virqs .. => false
  | .deliver _ => s.cur == hvIdleVcpuIdx P
  | .stop | .yield | .delay .. | .wait | .preempt => true

def react (s : Sched P) (q : Request) : Sched P :=
  if s.chooses q then (s.serve q).choose else s.serve q

/-- The vCPU that is switched to. A guest that yields to itself just goes on; one that is
preempted is switched to even if it is the only one that can run. -/
def dispatch (s : Sched P) (q : Request) : Option (VcpuIdx P) :=
  if s.chooses q then
    if q = .yield ∧ (s.serve q).chosen = some s.cur then none else (s.serve q).chosen
  else none

/-- The deadlines that the physical timer has to cover. -/
def deadlines (s : Sched P) : Set (BitVec 64) :=
  { d | ∃ i : VmIdx P, (s.status i.castSucc).live = true ∧ (s.status i.castSucc).timer.deadline = d }

end Sched

section Status
variable (now : BitVec 64) (v : VcpuStatus)

theorem VcpuStatus.counts_of_runs {v : VcpuStatus}
    (h : v.state = .running ∨ v.state = .runnable ∨ v.state = .blocked) : v.counts = true := by
  rw [counts]
  rcases h with h | h | h <;> rw [h] <;> rfl

theorem VcpuStatus.deliver_of_not_expired {v : VcpuStatus} (h : v.expired now = false) :
    v.deliver now = v :=
  if_neg (by rw [h]; decide)

/-- A delivery changes the run state of a blocked vCPU only, and leaves that runnable. -/
theorem VcpuStatus.deliver_state :
    (v.deliver now).state = v.state ∨ v.state = .blocked ∧ (v.deliver now).state = .runnable := by
  rw [deliver]
  split
  · change v.raiseTimer.state = _ ∨ _ ∧ v.raiseTimer.state = _
    rw [raiseTimer]
    split
    · exact .inl rfl
    · by_cases hb : v.state = .blocked
      · exact .inr ⟨hb, if_pos hb⟩
      · exact .inl (if_neg hb)
  · exact .inl rfl

theorem VcpuStatus.demote_state (isIdle : Bool) : (v.demote isIdle).state =
    if v.state = .running then if isIdle then .idle else .runnable else v.state := by
  rw [demote]
  split <;> rfl

theorem VcpuStatus.demote_timer (isIdle : Bool) : (v.demote isIdle).timer = v.timer := by
  rw [demote]
  split <;> rfl

@[simp] theorem VcpuStatus.demote_demote (isIdle : Bool) :
    (v.demote isIdle).demote isIdle = v.demote isIdle := by
  apply if_neg
  rw [demote_state]
  split
  · cases isIdle <;> simp
  · assumption

end Status

namespace Sched
variable (s : Sched P) {k : VcpuIdx P} (v : VcpuStatus) (q : Request)

section Status

theorem set_status (j : VcpuIdx P) : (s.set j v).status k = if k = j then v else s.status k :=
  Function.update_apply ..

@[simp] theorem set_set (j : VcpuIdx P) (w : VcpuStatus) : (s.set j v).set j w = s.set j w := by
  rw [set, set, Function.update_idem]
  rfl

@[simp] theorem set_cur (j : VcpuIdx P) : (s.set j v).cur = s.cur := rfl

@[simp] theorem demote_cur : s.demote.cur = s.cur := rfl

theorem demote_status_of_not_running (h : k = s.cur → (s.status k).state ≠ .running) :
    s.demote.status k = s.status k := by
  rw [demote, set_status]
  split
  · rename_i hc
    subst hc
    exact if_neg (h rfl)
  · rfl

theorem demote_status_of_ne (h : k ≠ s.cur) : s.demote.status k = s.status k :=
  s.demote_status_of_not_running fun he => absurd he h

@[simp] theorem demote_demote : s.demote.demote = s.demote := by
  rw [demote, set, demote_cur]
  have hcur : s.demote.status s.cur = (s.status s.cur).demote (s.cur == hvIdleVcpuIdx P) :=
    Function.update_self ..
  rw [hcur, VcpuStatus.demote_demote, ← hcur, Function.update_eq_self]
  rfl

theorem start_status (j : VcpuIdx P) : (s.start j).status k =
    if k = j then { s.status j with state := .running } else s.status k :=
  Function.update_apply ..

/-- Serving a request changes the current vCPU only, unless it is a timer interrupt. -/
theorem serve_status_of_ne (h : k ≠ s.cur) (hd : ∀ now, q = .deliver now → k ≠ hvIdleVcpuIdx P →
    (s.status k).expired now = false) : (s.serve q).status k = s.status k := by
  cases q with
  | resume | yield | preempt => rfl
  | virqs | stop | delay | wait => exact (s.set_status _ _).trans (if_neg h)
  | deliver now =>
    change (if k = hvIdleVcpuIdx P then s.status k else (s.status k).deliver now) = _
    split
    · rfl
    · exact VcpuStatus.deliver_of_not_expired now (hd now rfl ‹_›)

@[simp] theorem serve_cur : (s.serve q).cur = s.cur := by cases q <;> rfl

end Status

section Choice

theorem pick_some {j : VcpuIdx P} (h : s.pick = some j) :
    j ≠ hvIdleVcpuIdx P ∧ (s.status j).state = .runnable := by
  have hj := (find?_ring_some h).1
  rw [ready, Bool.and_eq_true, Bool.not_eq_true', beq_eq_false_iff_ne, beq_iff_eq] at hj
  exact hj

theorem ready_of_runnable (hk : k ≠ hvIdleVcpuIdx P) (h : (s.status k).state = .runnable) :
    s.ready k = true := by
  rw [ready, Bool.and_eq_true, Bool.not_eq_true', beq_eq_false_iff_ne, beq_iff_eq]
  exact ⟨hk, h⟩

theorem dispatch_of_chooses {q : Request} (hq : s.chooses q = true) (hy : q ≠ .yield) :
    s.dispatch q = (s.serve q).chosen := by
  rw [dispatch, if_pos hq, if_neg fun he => hy he.1]

/-- The choice passes over a guest that is neither running nor runnable. -/
theorem choose_of_not_runnable (hk : k ≠ hvIdleVcpuIdx P)
    (hc : k = s.cur → (s.status k).state ≠ .running) (h : (s.status k).state ≠ .runnable) :
    s.chosen ≠ some k ∧ s.choose.cur ≠ k ∧ s.choose.status k = s.status k := by
  have hpick : s.demote.pick ≠ some k := by
    intro hp
    have hrun := (pick_some _ hp).2
    rw [demote_status_of_not_running s hc] at hrun
    exact h hrun
  have hcur : s.demote.pick.getD (hvIdleVcpuIdx P) ≠ k := by
    rcases hp : s.demote.pick with - | j
    · exact hk.symm
    · exact fun he => hpick (hp.trans (congrArg some he))
  refine ⟨?_, hcur, ?_⟩
  · rw [chosen]
    rcases hp : s.demote.pick with - | j <;> dsimp only
    · split
      · simp
      · exact fun he => hk (Option.some.inj he).symm
    · exact hp ▸ hpick
  · rw [choose, start_status, if_neg hcur.symm, demote_status_of_not_running s hc]

/-- A choice changes run states only, and makes no guest idle. -/
theorem choose_rest : s.choose.status k = { s.status k with state := (s.choose.status k).state } ∧
    (k ≠ hvIdleVcpuIdx P → (s.status k).state ≠ .idle → (s.choose.status k).state ≠ .idle) := by
  have hdemote (k : VcpuIdx P) :
      s.demote.status k = { s.status k with state := (s.demote.status k).state } ∧
        (k ≠ hvIdleVcpuIdx P → (s.status k).state ≠ .idle → (s.demote.status k).state ≠ .idle) := by
    rw [demote, set_status]
    split
    · rename_i hc
      rw [VcpuStatus.demote, ← hc]
      split
      · refine ⟨rfl, fun hk _ => ?_⟩
        rw [beq_eq_false_iff_ne.mpr hk]
        simp
      · exact ⟨rfl, fun _ hs => hs⟩
    · exact ⟨rfl, fun _ hs => hs⟩
  rw [choose, start_status]
  split
  · rename_i hk
    refine ⟨?_, by simp⟩
    rw [← hk, (hdemote k).1]
  · exact hdemote k

/-- A handler passes over such a guest if serving the request leaves it as it is. -/
theorem react_of_not_runnable (hk : k ≠ hvIdleVcpuIdx P) (hc : k ≠ s.cur)
    (h : (s.status k).state ≠ .runnable) (hs : (s.serve q).status k = s.status k) :
    s.dispatch q ≠ some k ∧ (s.react q).cur ≠ k ∧ (s.react q).status k = s.status k := by
  have hchoose := (s.serve q).choose_of_not_runnable hk
    (fun he => absurd (he.trans (s.serve_cur q)) hc) (by rwa [hs])
  rw [dispatch, react]
  split
  · refine ⟨?_, hchoose.2.1, hchoose.2.2.trans hs⟩
    split
    · simp
    · exact hchoose.1
  · exact ⟨by simp, by rw [serve_cur]; exact hc.symm, hs⟩

/-- While a guest stays runnable, every switch brings the cursor nearer to it, and none is to
the idle vCPU. -/
theorem react_approaches (hk : k ≠ hvIdleVcpuIdx P)
    (hrun : ((s.react q).status k).state = .runnable) :
    match s.dispatch q with
    | none => (s.react q).cur = s.cur
    | some j => (s.react q).cur = j ∧ j ≠ hvIdleVcpuIdx P ∧ toGo j k < toGo s.cur k := by
  rw [dispatch]
  rw [react] at hrun ⊢
  by_cases hq : s.chooses q = true
  · rw [if_pos hq] at hrun ⊢
    rw [if_pos hq]
    rw [choose, start_status] at hrun
    have hne : k ≠ (s.serve q).demote.pick.getD (hvIdleVcpuIdx P) := by
      intro he
      rw [if_pos he] at hrun
      cases hrun
    rw [if_neg hne] at hrun
    have hready := ready_of_runnable _ hk hrun
    rcases hp : (s.serve q).demote.pick with - | j
    · rw [find?_ring_none hp k] at hready
      cases hready
    · rw [hp] at hne
      have hnear := toGo_find?_ring hp hready (Ne.symm hne)
      rw [demote_cur, serve_cur] at hnear
      have hcur : (s.serve q).choose.cur = j := by rw [choose, hp]; rfl
      have hchosen : (s.serve q).chosen = some j := by rw [chosen, hp]
      rw [hchosen]
      by_cases hself : q = .yield ∧ some j = some s.cur
      · rw [if_pos hself]
        exact hcur.trans (Option.some.inj hself.2)
      · rw [if_neg hself]
        exact ⟨hcur, (pick_some _ hp).1, hnear⟩
  · rw [if_neg hq, if_neg hq]
    exact s.serve_cur q

end Choice

section Exited

/-- A choice makes nobody exit. -/
theorem choose_exited (h : (s.choose.status k).state = .exited) :
    s.choose.status k = s.status k := by
  rw [choose, start_status] at h ⊢
  split at h
  · cases h
  · rename_i hne
    rw [if_neg hne]
    by_cases hc : k = s.cur
    · have hst : s.demote.status k = (s.status k).demote (s.cur == hvIdleVcpuIdx P) := by
        rw [demote, set_status, if_pos hc, hc]
      rw [hst, VcpuStatus.demote_state] at h
      rw [hst, VcpuStatus.demote]
      split at h
      · split at h <;> cases h
      · rename_i hrun
        exact if_neg hrun
    · exact demote_status_of_ne s hc

/-- Every handler that lets a vCPU exit switches its timer off. -/
theorem react_exited (hs : ∀ k, (s.status k).state = .exited → (s.status k).timer.enabled = false)
    (h : ((s.react q).status k).state = .exited) :
    ((s.react q).status k).timer.enabled = false := by
  have hset (v : VcpuStatus) (hv : v.state = .exited → v.timer.enabled = false)
      (hx : ((s.set s.cur v).status k).state = .exited) :
      ((s.set s.cur v).status k).timer.enabled = false := by
    rw [set_status] at hx ⊢
    split
    · rename_i he
      rw [if_pos he] at hx
      exact hv hx
    · rename_i he
      rw [if_neg he] at hx
      exact hs k hx
  have hserve (hx : ((s.serve q).status k).state = .exited) :
      ((s.serve q).status k).timer.enabled = false := by
    cases q with
    | resume | yield | preempt => exact hs k hx
    | virqs pending active => exact hset _ (hs s.cur) hx
    | stop => exact hset _ (fun _ => rfl) hx
    | delay now ticks => exact hset _ nofun hx
    | wait => exact hset _ nofun hx
    | deliver now =>
      change ((if k = hvIdleVcpuIdx P then s.status k else (s.status k).deliver now).state) = _ at hx
      change (if k = hvIdleVcpuIdx P then s.status k else (s.status k).deliver now).timer.enabled = _
      split
      · rename_i he
        rw [if_pos he] at hx
        exact hs k hx
      · rename_i he
        rw [if_neg he] at hx
        rcases (s.status k).deliver_state now with hst | ⟨-, hst⟩
        · rw [hst] at hx
          have hdead : (s.status k).expired now = false := by
            rw [VcpuStatus.expired, VcpuStatus.live, hs k hx, Bool.and_false, Bool.false_and]
          rw [VcpuStatus.deliver_of_not_expired now hdead]
          exact hs k hx
        · rw [hst] at hx
          cases hx
  rw [react] at h ⊢
  split
  · rename_i hq
    rw [if_pos hq] at h
    have he := choose_exited _ h
    rw [he] at h ⊢
    exact hserve h
  · rename_i hq
    rw [if_neg hq] at h
    exact hserve h

/-- No guest is ever made idle. -/
theorem react_not_idle (hk : k ≠ hvIdleVcpuIdx P) (h : (s.status k).state ≠ .idle) :
    ((s.react q).status k).state ≠ .idle := by
  have hset (v : VcpuStatus) (hv : k = s.cur → v.state ≠ .idle) :
      ((s.set s.cur v).status k).state ≠ .idle := by
    rw [set_status]
    split
    · exact hv ‹_›
    · exact h
  have hserve : ((s.serve q).status k).state ≠ .idle := by
    cases q with
    | resume | yield | preempt => exact h
    | virqs pending active => exact hset _ fun he => he ▸ h
    | stop | delay | wait => exact hset _ fun _ => by simp
    | deliver now =>
      change (if k = hvIdleVcpuIdx P then s.status k else (s.status k).deliver now).state ≠ _
      rw [if_neg hk]
      rcases (s.status k).deliver_state now with hst | ⟨-, hst⟩ <;> rw [hst]
      · exact h
      · simp
  rw [react]
  split
  · exact (choose_rest _).2 hk hserve
  · exact hserve

end Exited

section Deadlines
variable (i : VmIdx P)

theorem demote_guest : (s.demote.status i.castSucc).live = (s.status i.castSucc).live ∧
    (s.demote.status i.castSucc).timer = (s.status i.castSucc).timer := by
  by_cases hc : i.castSucc = s.cur
  · have hidle : (s.cur == hvIdleVcpuIdx P) = false := by
      rw [beq_eq_false_iff_ne, ← hc]
      exact Fin.castSucc_ne_last i
    have hst : s.demote.status i.castSucc = (s.status i.castSucc).demote false := by
      rw [demote, set_status, if_pos hc, hidle, hc]
    refine ⟨?_, by rw [hst, VcpuStatus.demote_timer]⟩
    rw [hst, VcpuStatus.demote]
    split
    · rename_i hr
      rw [VcpuStatus.live, VcpuStatus.live, VcpuStatus.counts_of_runs (.inl hr),
        VcpuStatus.counts_of_runs (.inr (.inl rfl))]
    · rfl
  · rw [demote_status_of_ne s hc]
    exact ⟨rfl, rfl⟩

/-- A choice changes no deadline and nobody's claim to be woken at it. -/
theorem choose_deadlines : s.choose.deadlines = s.deadlines := by
  have hguest : ∀ i : VmIdx P, (s.choose.status i.castSucc).live = (s.status i.castSucc).live ∧
      (s.choose.status i.castSucc).timer = (s.status i.castSucc).timer := by
    intro i
    rw [choose, start_status]
    split
    · rename_i he
      rcases hp : s.demote.pick with - | j
      · rw [hp] at he
        exact absurd he (Fin.castSucc_ne_last i)
      · rw [hp, Option.getD_some] at he
        have hrun := (pick_some _ hp).2
        obtain ⟨hlive, htimer⟩ := s.demote_guest i
        rw [Option.getD_some, ← he]
        rw [← he] at hrun
        refine ⟨?_, htimer⟩
        rw [← hlive, VcpuStatus.live, VcpuStatus.live, VcpuStatus.counts_of_runs (.inl rfl),
          VcpuStatus.counts_of_runs (.inr (.inl hrun))]
    · exact s.demote_guest i
  ext d
  apply exists_congr
  intro i
  rw [(hguest i).1, (hguest i).2]

/-- The requests that do not re-arm the physical timer leave the deadlines alone. -/
theorem react_deadlines (hq : q.rearms = false) (hrun : (s.status s.cur).state = .running) :
    (s.react q).deadlines = s.deadlines := by
  have hset (v : VcpuStatus) (hl : v.live = (s.status s.cur).live)
      (ht : v.timer = (s.status s.cur).timer) : (s.set s.cur v).deadlines = s.deadlines := by
    ext d
    apply exists_congr
    intro i
    rw [set_status]
    split
    · rename_i he
      rw [hl, ht, he]
    · rfl
  have hserve : (s.serve q).deadlines = s.deadlines := by
    cases q with
    | resume | yield | preempt => rfl
    | virqs pending active => exact hset _ rfl rfl
    | wait =>
      refine hset _ ?_ rfl
      rw [VcpuStatus.live, VcpuStatus.live, VcpuStatus.counts_of_runs (.inl hrun),
        VcpuStatus.counts_of_runs (.inr (.inr rfl))]
    | stop | delay | deliver => cases hq
  rw [react]
  split
  · rw [choose_deadlines, hserve]
  · exact hserve

end Deadlines

end Sched

end PiPervisor.Hv
