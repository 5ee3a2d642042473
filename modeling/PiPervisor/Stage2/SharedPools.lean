import PiPervisor.Stage2.CallRefinement

/-! # Many VMs in one array of pools

Initialisations and calls on any number of VMs interleave over the one static
array. As long as no two of them hold the same id, each VM refines its own page
map and behaves as if the others were not there.
-/
namespace PiPervisor.Stage2
open Library Library.Memory Library.Transition AddressSpace

variable {ι : Type*} [DecidableEq ι]

/-- The VMs and the descriptor memory they share. -/
abbrev SharedVms (ι : Type*) := (ι → HvVm) × TablePools

def vmOp (P : Platform) (vm : HvVm) (m : TablePools) : VmOp → ℤ × HvVm × TablePools
  | .init id vmid => hvVmInit P vm m id vmid
  | .call c => vmCall vm m c

def sharedStep (P : Platform) (s : SharedVms ι) (op : ι × VmOp) : ℤ × SharedVms ι :=
  let res := vmOp P (s.1 op.1) s.2 op.2
  (res.1, Function.update s.1 op.1 res.2.1, res.2.2)

/-- The id each VM holds; none before its first successful initialisation. -/
def idsAfter (P : Platform) (ids : ι → Option ℕ) (op : ι × VmOp) : ι → Option ℕ :=
  match op.2 with
  | .init id _ => if id < P.hvMaxVms then Function.update ids op.1 (some id) else ids
  | .call _ => ids

/-- Calls come after an initialisation, and no other VM holds the id that is taken. -/
def Allowed (P : Platform) (ids : ι → Option ℕ) (op : ι × VmOp) : Prop :=
  match op.2 with
  | .init id _ => id < P.hvMaxVms → ∀ j, j ≠ op.1 → ids j ≠ some id
  | .call _ => ids op.1 ≠ none

def Separate (P : Platform) : (ι → Option ℕ) → List (ι × VmOp) → Prop
  | _, [] => True
  | ids, op :: ops => Allowed P ids op ∧ Separate P (idsAfter P ids op) ops

def Initialised (P : Platform) (ops : List (ι × VmOp)) (i : ι) : Prop :=
  ∃ id vmid, id < P.hvMaxVms ∧ (i, VmOp.init id vmid) ∈ ops

/-- A VM holds the id `n` and refines its address space. -/
structure RefinesAt (P : Platform) (n : ℕ) (vm : HvVm) (m : TablePools) (a : AddressSpace) :
    Prop where
  id : vm.id = n
  refines : Refines P vm m a
  sound : a.Sound

/-- Every VM that holds an id refines its own address space, in its own pool. -/
structure Shared (P : Platform) (s : SharedVms ι) (a : ι → AddressSpace) (ids : ι → Option ℕ) :
    Prop where
  refines : ∀ i n, ids i = some n → RefinesAt P n (s.1 i) s.2 (a i)
  distinct : ∀ i j n, ids i = some n → ids j = some n → i = j

variable {P : Platform} {vm : HvVm} {m m' : TablePools} {s : SharedVms ι} {a : ι → AddressSpace}
  {ids : ι → Option ℕ} {op : ι × VmOp}

omit [DecidableEq ι] in
/-- A VM sees no change outside its own pool. -/
theorem Refines.outside {b : AddressSpace} {n : ℕ} (h : Refines P vm m b)
    (hm : SameOutside (ownPool n) m m') (hn : vm.id ≠ n) : Refines P vm m' b := by
  obtain ⟨hreg, t, ht⟩ := h
  have hh := ht.holds
  refine ⟨hreg, t, ⟨⟨hh.id_lt, hh.rootVa, hh.poolVa, hh.rootPa, hh.poolPa, hh.poolPages,
    hh.poolUsed, ?_⟩, ht.nodes, ht.leaf⟩⟩
  refine hh.repr.congr fun k j hk => hm _ ?_
  exact Set.disjoint_left.mp (ownPool_disjoint hn) (poolSlot_mem vm.id k j hk)

/-- Replacing one VM keeps the others, if only its own pool changed. -/
theorem Shared.update (h : Shared P s a ids) {i : ι} {n : ℕ} {b : AddressSpace}
    (hr : RefinesAt P n vm m' b) (hm : SameOutside (ownPool n) s.2 m')
    (hfree : ∀ j, j ≠ i → ids j ≠ some n) :
    Shared P (Function.update s.1 i vm, m') (Function.update a i b)
      (Function.update ids i (some n)) := by
  have hother {j : ι} {k : ℕ} (hj : j ≠ i) (hk : ids j = some k) : k ≠ n := by
    rintro rfl
    exact hfree j hj hk
  refine ⟨?_, ?_⟩
  · intro j k hk
    dsimp only
    by_cases hj : j = i
    · subst hj
      rw [Function.update_self] at hk
      rw [Function.update_self, Function.update_self, ← Option.some.inj hk]
      exact hr
    · rw [Function.update_of_ne hj] at hk
      rw [Function.update_of_ne hj, Function.update_of_ne hj]
      obtain ⟨hid, href, hs⟩ := h.refines j k hk
      exact ⟨hid, href.outside hm (by rw [hid]; exact hother hj hk), hs⟩
  · intro j j' k hk hk'
    by_cases hj : j = i
    · by_cases hj' : j' = i
      · rw [hj, hj']
      · subst hj
        rw [Function.update_self] at hk
        rw [Function.update_of_ne hj'] at hk'
        exact absurd (Option.some.inj hk).symm (hother hj' hk')
    · rw [Function.update_of_ne hj] at hk
      by_cases hj' : j' = i
      · subst hj'
        rw [Function.update_self] at hk'
        exact absurd (Option.some.inj hk').symm (hother hj hk)
      · rw [Function.update_of_ne hj'] at hk'
        exact h.distinct j j' k hk hk'

theorem Shared.step (h : Shared P s a ids) (hop : Allowed P ids op) :
    (sharedStep P s op).1 = (interleave (AddressSpace.op P) a op).1 ∧
      Shared P (sharedStep P s op).2 (interleave (AddressSpace.op P) a op).2
        (idsAfter P ids op) := by
  obtain ⟨i, o⟩ := op
  cases o with
  | init id vmid =>
    by_cases hid : id < P.hvMaxVms
    · obtain ⟨hc, hi, -, hr, hf⟩ := hvVmInit_agrees P (s.1 i) s.2 vmid hid
      have hspec : AddressSpace.op P (a i) (.init id vmid) = (hvVmOk, .empty) := if_pos hid
      simp only [interleave, hspec, idsAfter, if_pos hid]
      exact ⟨hc, h.update ⟨hi, hr, .empty⟩ hf (hop hid)⟩
    · have hspec : AddressSpace.op P (a i) (.init id vmid) = (hvVmErrInval, a i) := if_neg hid
      have hcode : hvVmInit P (s.1 i) s.2 id vmid = (hvVmErrInval, s.1 i, s.2) := by
        rw [hvVmInit, if_pos (by omega)]
      simp only [interleave, sharedStep, vmOp, hspec, hcode, idsAfter, if_neg hid,
        Function.update_eq_self]
      exact ⟨trivial, h⟩
  | call c =>
    obtain ⟨n, hn⟩ := Option.ne_none_iff_exists'.mp hop
    obtain ⟨hid, href, hs⟩ := h.refines i n hn
    have hc := href.call hs c
    have hids : Function.update ids i (some n) = ids := by rw [← hn, Function.update_eq_self]
    have hnext := h.update (i := i) ⟨hc.id.trans hid, hc.refines, hs.step c⟩ (hid ▸ hc.frame)
      (fun j hj hjn => hj (h.distinct j i n hjn hn))
    rw [hids] at hnext
    exact ⟨hc.code, hnext⟩

theorem Shared.exec (h : Shared P s a ids) (ops : List (ι × VmOp)) (hsep : Separate P ids ops) :
    (exec (sharedStep P) s ops).1 = (exec (interleave (AddressSpace.op P)) a ops).1 ∧
      Shared P (exec (sharedStep P) s ops).2 (exec (interleave (AddressSpace.op P)) a ops).2
        (ops.foldl (idsAfter P) ids) := by
  induction ops generalizing s a ids with
  | nil => exact ⟨rfl, h⟩
  | cons op ops ih =>
    obtain ⟨hc, hs⟩ := h.step hsep.1
    obtain ⟨hcs, hrun⟩ := ih hs hsep.2
    rw [exec_cons, exec_cons, hc, hcs]
    exact ⟨rfl, hrun⟩

omit [DecidableEq ι] in
theorem Shared.start (P : Platform) (s : SharedVms ι) (a : ι → AddressSpace) :
    Shared P s a (fun _ => none) := by
  constructor <;> intros <;> contradiction

/-- An initialised VM holds an id from then on. -/
theorem foldl_idsAfter_ne_none (ops : List (ι × VmOp)) (ids : ι → Option ℕ) (i : ι)
    (h : ids i ≠ none ∨ Initialised P ops i) : ops.foldl (idsAfter P) ids i ≠ none := by
  induction ops generalizing ids with
  | nil =>
    rcases h with h | ⟨_, _, _, h⟩
    · exact h
    · cases h
  | cons op ops ih =>
    rw [List.foldl_cons]
    apply ih
    have hkeep (hi : ids i ≠ none) : idsAfter P ids op i ≠ none := by
      obtain ⟨j, o⟩ := op
      cases o with
      | init id vmid =>
        dsimp only [idsAfter]
        by_cases hid : id < P.hvMaxVms
        · rw [if_pos hid, Function.update_apply]
          split
          · simp
          · exact hi
        · rwa [if_neg hid]
      | call c => exact hi
    rcases h with h | ⟨id, vmid, hid, hmem⟩
    · exact .inl (hkeep h)
    · rcases List.mem_cons.mp hmem with rfl | hmem
      · simp [idsAfter, hid]
      · exact .inr ⟨id, vmid, hid, hmem⟩

/-- After an interleaved run every initialised VM refines its own run. -/
theorem run_refines (s : SharedVms ι) (a : ι → AddressSpace) (ops : List (ι × VmOp))
    (hsep : Separate P (fun _ => none) ops) {i : ι} (hi : Initialised P ops i) :
    let spec := exec (interleave (AddressSpace.op P)) a ops
    Refines P ((exec (sharedStep P) s ops).2.1 i) (exec (sharedStep P) s ops).2.2 (spec.2 i) ∧
      (spec.2 i).Sound := by
  intro spec
  obtain ⟨-, hrun⟩ := (Shared.start P s a).exec ops hsep
  obtain ⟨n, hn⟩ := Option.ne_none_iff_exists'.mp
    (foldl_idsAfter_ne_none ops (fun _ => none) i (.inr hi))
  exact ⟨(hrun.refines i n hn).refines, (hrun.refines i n hn).sound⟩

theorem Refines.held_length {b : AddressSpace} (h : Refines P vm m b) :
    b.pages.held.length ≤ tableBudget := by
  obtain ⟨-, t, ht⟩ := h
  exact ht.held_length

/-- The tables of VMs that take turns behave as page maps: same results, same translations, and a
mapping succeeds exactly if all its pages can be entered. -/
theorem page_tables_refine_page_maps (P : Platform) (s : SharedVms ι) (a : ι → AddressSpace)
    (ops : List (ι × VmOp)) (hsep : Separate P (fun _ => none) ops) :
    let run := exec (sharedStep P) s ops
    let spec := exec (interleave (AddressSpace.op P)) a ops
    run.1 = spec.1 ∧ ∀ i, Initialised P ops i →
      (∀ ipa, (hvStage2Translate (run.2.1 i) run.2.2 ipa).map BitVec.toNat =
        (spec.2 i).translate ipa.toNat) ∧
      ∀ ipa pa size attrs,
        let pages := rangePages ipa.toNat pa.toNat size.toNat attrs
        let after := (spec.2 i).mapRegion ipa.toNat pa.toNat size.toNat attrs
        (hvStage2MapRegion (run.2.1 i) run.2.2 ipa pa size attrs).1 = hvStage2Ok ↔
          pages ≠ [] ∧ ∀ p ∈ pages, (spec.2 i).pages.entry p.1 = none ∧
            after.2.pages.entry p.1 = some p.2 := by
  intro run spec
  refine ⟨((Shared.start P s a).exec ops hsep).1, fun i hi => ?_⟩
  obtain ⟨href, hs⟩ := run_refines s a ops hsep hi
  refine ⟨href.translate hs, fun ipa pa size attrs => ?_⟩
  rw [(href.mapRegion hs.table ipa pa size attrs).code]
  exact AddressSpace.mapRegion_ok_iff _ href.held_length _ _ _ _

/-- Two VMs, the second one initialised between the calls on the first. -/
def twoVmOps : List (Bool × VmOp) :=
  let ram (pa : HvPa) : HvVmRegion :=
    { ipaBase := 0x400000, size := 0x3000, paBase := pa, attrs := hvStage2PageNormalNcRw,
      type := .ram, device := .none }
  [(false, .init 0 1), (false, .call (.addRegion (ram 0x800000))), (true, .init 1 2),
    (false, .call .buildStage2), (true, .call (.addRegion (ram 0x900000))),
    (true, .call .buildStage2), (false, .call (.unmapPage 0x401000))]

/-- Two VMs that hold junk, and junk descriptors in the array. -/
def uninitialisedVms : SharedVms Bool :=
  (fun _ => ⟨9, 9, [], ⟨5, 5, 5, 5, 5, 5⟩⟩, fun c => BitVec.ofNat 64 (4096 * c + 3))

theorem twoVmOps_separate : Separate .twoSlots (fun _ => none) twoVmOps := by
  simp [twoVmOps, Separate, Allowed, idsAfter, Platform.twoSlots]

theorem page_tables_refine_page_maps_two_vms :
    let run := exec (sharedStep .twoSlots) uninitialisedVms twoVmOps
    let spec := exec (interleave (AddressSpace.op .twoSlots)) (fun _ => .empty) twoVmOps
    run.1 = spec.1 ∧ (hvStage2Translate (run.2.1 true) run.2.2 0x402345).map BitVec.toNat =
      (spec.2 true).translate 0x402345 := by
  intro run spec
  obtain ⟨hcodes, hvm⟩ := page_tables_refine_page_maps .twoSlots uninitialisedVms
    (fun _ => .empty) twoVmOps twoVmOps_separate
  exact ⟨hcodes, (hvm true ⟨1, 2, by decide, by simp [twoVmOps]⟩).1 0x402345⟩

end PiPervisor.Stage2
