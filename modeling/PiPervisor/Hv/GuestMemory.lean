import PiPervisor.Hv.Mmu

/-! # The memory that a guest sees

The guests and the hypervisor share one physical memory, which also holds the
stage-2 tables. Every access of a running guest goes through the walk that the
control registers select; over any run, the loads of a guest return what its
own stores have left, and nothing but its RAM changes.
-/
namespace PiPervisor.Hv
open Stage2 Library Library.LongDescriptor Library.Transition

variable {P : Platform} {b : Boot P}

section Guests

/-- A byte that a guest loads or stores; a fetch is a load of another kind. -/
inductive GuestOp where
  | load (x : BitVec 32)
  | fetch (x : BitVec 32)
  | store (x : BitVec 32) (value : BitVec 8)

def GuestOp.address : GuestOp → BitVec 32
  | .load x | .fetch x | .store x _ => x

def GuestOp.access : GuestOp → Access
  | .load _ => .read
  | .fetch _ => .fetch
  | .store _ _ => .write

/-- The effect of an access at its place: the byte there, and the memory after it. -/
def GuestOp.apply (op : GuestOp) (mem : PhysMem) (p : ℕ) : BitVec 8 × PhysMem :=
  match op with
  | .store _ value => (value, Function.update mem p value)
  | _ => (mem p, mem)

/-- An access changes the byte at its place and no other. -/
theorem GuestOp.apply_frame (op : GuestOp) (mem : PhysMem) {p q : ℕ} (hq : q ≠ p) :
    (op.apply mem p).2 q = mem q := by
  cases op with
  | load x => rfl
  | fetch x => rfl
  | store x value => exact Function.update_of_ne hq _ _

/-- An access through the MMU; one that faults changes nothing. -/
def serve (cpu : Cpu) (mem : PhysMem) (op : GuestOp) : Except Fault (BitVec 8) × PhysMem :=
  match stage2Access cpu mem op.access op.address with
  | .error fault => (.error fault, mem)
  | .ok p => (.ok (op.apply mem p).1, (op.apply mem p).2)

/-- The machine of one guest that has its RAM for itself. -/
def serveAlone (ram : PhysMem) (op : GuestOp) : Except Fault (BitVec 8) × PhysMem :=
  if InRam op.address.toNat then
    (.ok (op.apply ram op.address.toNat).1, (op.apply ram op.address.toNat).2)
  else (.error .translation, ram)

structure ServedAccess (P : Platform) where
  guest : VmIdx P
  op : GuestOp
  result : Except Fault (BitVec 8)

/-- A state of a run together with physical memory, and the accesses served so far. -/
structure MemState (P : Platform) where
  run : RunState P
  mem : PhysMem
  served : List (ServedAccess P)

/-- The handler of a trap leaves anything in the memory of the hypervisor itself. -/
inductive MemEvent where
  | trap (t : Trap) (image : PhysMem)
  | access (op : GuestOp)

/-- The memory of the hypervisor below the guests, without the tables. -/
def InImage (P : Platform) (p : ℕ) : Prop :=
  p < guestBase ∧
    ¬ (P.stage2TablePools ≤ p ∧ p < P.stage2TablePools + P.hvMaxVms * 32768)

instance (p : ℕ) : Decidable (InImage P p) := by
  unfold InImage
  infer_instance

def MemState.step (s : MemState P) : MemEvent → Option (MemState P)
  | .trap t image => (s.run.step t).map fun r =>
    { s with run := r, mem := fun p => if InImage P p then image p else s.mem p }
  | .access op =>
    match s.run.hyp.scheduler.curVcpu with
    | none => none
    | some c =>
      if h : c.val < P.hvMaxVms then
        let (result, mem) := serve s.run.hyp.cpu s.mem op
        some { s with mem := mem, served := s.served ++ [⟨⟨c.val, h⟩, op, result⟩] }
      else none

/-- What every state of such a run satisfies. -/
structure MemState.Inv (b : Boot P) (s : MemState P) : Prop where
  running : Running b s.run
  vtcr : s.run.hyp.cpu.vtcr = hvStage2VtcrDefault
  tables : TablesIn s.mem s.run.hyp.toCore

/-- A guest that is served reaches its own RAM as if it were alone. -/
theorem MemState.Inv.serve {s : MemState P} (hi : s.Inv b) {i : VmIdx P}
    (hc : s.run.hyp.scheduler.curVcpu = some i.castSucc) (op : GuestOp) :
    serve s.run.hyp.cpu s.mem op = if InRam op.address.toNat then
      (.ok (op.apply s.mem (slotAddress i op.address.toNat)).1,
        (op.apply s.mem (slotAddress i op.address.toNat)).2)
    else (.error .translation, s.mem) := by
  rw [PiPervisor.Hv.serve, hi.running.stage2Access hi.vtcr hc hi.tables]
  by_cases hx : InRam op.address.toNat
  · rw [if_pos hx, if_pos hx]
  · rw [if_neg hx, if_neg hx]

theorem slotAddress_inj {i j : VmIdx P} {x y : ℕ} (hx : InRam x) (hy : InRam y)
    (h : slotAddress i x = slotAddress j y) : i = j ∧ x = y := by
  rw [InRam, guestBase, guestRamSize] at hx hy
  rw [slotAddress, slotAddress, guestBase, guestSlotSize] at h
  have hij : i.val = j.val := by omega
  exact ⟨Fin.ext hij, by omega⟩

/-- The RAM of every guest is as its own machine has it. -/
def Shows (mem : PhysMem) (rams : VmIdx P → PhysMem) : Prop :=
  ∀ i x, InRam x → mem (slotAddress i x) = rams i x

/-- An address outside the image and the RAM of the guests. -/
def Untouched (P : Platform) (p : ℕ) : Prop :=
  ¬ InImage P p ∧ ∀ (i : VmIdx P) (x : ℕ), InRam x → p ≠ slotAddress i x

theorem Shows.update {mem : PhysMem} {rams : VmIdx P → PhysMem} (hs : Shows mem rams)
    (i : VmIdx P) {x : ℕ} (hx : InRam x) (value : BitVec 8) :
    Shows (Function.update mem (slotAddress i x) value)
      (Function.update rams i (Function.update (rams i) x value)) := by
  intro j y hy
  by_cases hj : j = i
  · subst hj
    rw [Function.update_self]
    by_cases hyx : y = x
    · rw [hyx, Function.update_self, Function.update_self]
    · have hne : slotAddress j y ≠ slotAddress j x := fun he => hyx (slotAddress_inj hy hx he).2
      rw [Function.update_of_ne hne, Function.update_of_ne hyx]
      exact hs j y hy
  · have hne : slotAddress j y ≠ slotAddress i x := fun he => hj (slotAddress_inj hy hx he).1
    rw [Function.update_of_ne hne, Function.update_of_ne hj]
    exact hs j y hy

/-- An access in RAM, on the shared memory and on the guest's own. -/
theorem Shows.apply {mem : PhysMem} {rams : VmIdx P → PhysMem} (hs : Shows mem rams)
    (i : VmIdx P) (op : GuestOp) {x : ℕ} (hx : InRam x) :
    (op.apply mem (slotAddress i x)).1 = (op.apply (rams i) x).1 ∧
      Shows (op.apply mem (slotAddress i x)).2
        (Function.update rams i (op.apply (rams i) x).2) := by
  have hself : Shows mem (Function.update rams i (rams i)) := by
    rw [Function.update_eq_self]
    exact hs
  cases op with
  | load y => exact ⟨hs i x hx, hself⟩
  | fetch y => exact ⟨hs i x hx, hself⟩
  | store y value =>
    simp only [GuestOp.apply]
    exact ⟨trivial, hs.update i hx value⟩

variable (hlayout : P.stage2TablePools + P.hvMaxVms * 32768 ≤ guestBase)
include hlayout

omit hlayout in
/-- Memory that is the same where the tables lie still holds them. -/
theorem TablesIn.congr {mem mem' : PhysMem} {m : Core P} (h : TablesIn mem m)
    (hmem : ∀ p, P.stage2TablePools ≤ p → p < P.stage2TablePools + P.hvMaxVms * 32768 →
      mem' p = mem p) : TablesIn mem' m := by
  intro n hn
  rw [← h n hn]
  exact readDesc_congr fun k hk => hmem _ (by omega) (by omega)

/-- A step of a run: a trap, or an access that the guest's own machine serves alike. -/
theorem MemState.Inv.step {s s' : MemState P} {e : MemEvent} (hi : s.Inv b)
    {rams : VmIdx P → PhysMem} (hs : Shows s.mem rams) (hstep : s.step e = some s') :
    s'.Inv b ∧ (∀ p, Untouched P p → s'.mem p = s.mem p) ∧
      ((s'.served = s.served ∧ Shows s'.mem rams) ∨ ∃ i op,
        s'.served = s.served ++ [⟨i, op, (serveAlone (rams i) op).1⟩] ∧
          Shows s'.mem (Function.update rams i (serveAlone (rams i) op).2)) := by
  cases e with
  | trap t image =>
    obtain ⟨r, hr, rfl⟩ := Option.map_eq_some_iff.mp hstep
    have hmem {p : ℕ} (hp : ¬ InImage P p) : (if InImage P p then image p else s.mem p) =
        s.mem p := if_neg hp
    obtain ⟨htables, hvtcr⟩ : r.hyp.tables = s.run.hyp.tables ∧
        r.hyp.cpu.vtcr = hvStage2VtcrDefault := by
      obtain ⟨c, h', -, -, hok, rfl⟩ := RunState.step_eq_some hr
      exact ⟨(closed_tables _).hypHandleException (h := takeTrap s.run.hyp t) rfl _ _ hok,
        closed_vtcr.hypHandleException (h := takeTrap s.run.hyp t) hi.vtcr _ _ hok⟩
    refine ⟨⟨hi.running.step hr, hvtcr, ?_⟩, fun p hp => hmem hp.1,
      .inl ⟨rfl, fun i x hx => ?_⟩⟩
    · intro n hn
      have hpools : r.hyp.stage2TablePools = s.run.hyp.stage2TablePools := congrArg Prod.snd htables
      dsimp only
      rw [hpools]
      exact hi.tables.congr (fun p hp hp' => hmem fun hin => hin.2 ⟨hp, hp'⟩) n hn
    · have hout : ¬ InImage P (slotAddress i x) := fun hin => by
        have hlow := hin.1
        rw [slotAddress] at hlow
        omega
      dsimp only
      rw [if_neg hout]
      exact hs i x hx
  | access op =>
    rw [MemState.step] at hstep
    rcases hc : s.run.hyp.scheduler.curVcpu with - | c
    · rw [hc] at hstep
      cases hstep
    rw [hc] at hstep
    dsimp only at hstep
    by_cases hguest : c.val < P.hvMaxVms
    · rw [dif_pos hguest] at hstep
      have hserve := hi.serve (i := ⟨c.val, hguest⟩) hc op
      rw [hserve] at hstep
      by_cases hx : InRam op.address.toNat
      · rw [if_pos hx] at hstep
        obtain rfl := Option.some.inj hstep
        obtain ⟨hbyte, hshows⟩ := hs.apply ⟨c.val, hguest⟩ op hx
        refine ⟨⟨hi.running, hi.vtcr, hi.tables.congr fun p hp hp' => op.apply_frame s.mem ?_⟩,
          fun p hp => op.apply_frame s.mem (hp.2 _ _ hx), .inr ⟨⟨c.val, hguest⟩, op, ?_, ?_⟩⟩
        · rw [slotAddress]
          omega
        · rw [serveAlone, if_pos hx, ← hbyte]
        · rw [serveAlone, if_pos hx]
          exact hshows
      · rw [if_neg hx] at hstep
        obtain rfl := Option.some.inj hstep
        refine ⟨⟨hi.running, hi.vtcr, hi.tables⟩, fun _ _ => rfl,
          .inr ⟨⟨c.val, hguest⟩, op, ?_, ?_⟩⟩
        · rw [serveAlone, if_neg hx]
        · rw [serveAlone, if_neg hx, Function.update_eq_self]
          exact hs
    · rw [dif_neg hguest] at hstep
      cases hstep

/-- The command of an access that has been served. -/
def ServedAccess.command (e : ServedAccess P) : VmIdx P × GuestOp := (e.guest, e.op)

/-- All guests side by side, each with its own RAM. -/
def guestsAlone (rams : VmIdx P → PhysMem) (cmds : List (VmIdx P × GuestOp)) :
    List (Except Fault (BitVec 8)) × (VmIdx P → PhysMem) := exec (interleave serveAlone) rams cmds

theorem MemState.Inv.run {s s' : MemState P} {es : List MemEvent} (hi : s.Inv b)
    {rams : VmIdx P → PhysMem} (hs : Shows s.mem rams)
    (hrun : Library.Transition.run MemState.step s es = some s') : s'.Inv b ∧ ∃ new,
      s'.served = s.served ++ new ∧
        new.map ServedAccess.result = (guestsAlone rams (new.map ServedAccess.command)).1 ∧
        Shows s'.mem (guestsAlone rams (new.map ServedAccess.command)).2 ∧
        ∀ p, Untouched P p → s'.mem p = s.mem p := by
  induction es generalizing s rams with
  | nil =>
    obtain rfl := Option.some.inj hrun
    exact ⟨hi, [], (List.append_nil _).symm, rfl, hs, fun _ _ => rfl⟩
  | cons e es ih =>
    rw [run_cons, Option.bind_eq_some_iff] at hrun
    obtain ⟨s1, hstep, hrun⟩ := hrun
    obtain ⟨hi1, hframe, ⟨hsame, hs1⟩ | ⟨i, op, hserved, hs1⟩⟩ := hi.step hlayout hs hstep
    · obtain ⟨hi', new, hnew, hresults, hshows, hframe'⟩ := ih hi1 hs1 hrun
      exact ⟨hi', new, hsame ▸ hnew, hresults, hshows, fun p hp => (hframe' p hp).trans (hframe p hp)⟩
    · obtain ⟨hi', new, hnew, hresults, hshows, hframe'⟩ := ih hi1 hs1 hrun
      refine ⟨hi', ⟨i, op, (serveAlone (rams i) op).1⟩ :: new, ?_, ?_, hshows,
        fun p hp => (hframe' p hp).trans (hframe p hp)⟩
      · rw [hnew, hserved, List.append_assoc, List.singleton_append]
      · rw [List.map_cons, hresults]
        rfl

end Guests

end PiPervisor.Hv
