import PiPervisor.Stage2.SharedPools

/-! # VMs do not interfere

A table walk reads and writes descriptors of the VM's own pool only, and what a
VM observes in an interleaved run is what it observes when it runs alone.
-/
namespace PiPervisor.Stage2
open Library Library.Memory Library.Transition AddressSpace

/-- The descriptors that the walk of an address reads, and the leaf it ends at. -/
def walkCells (s : HvStage2) (m : TablePools) (ipa : HvIpa) : List ℕ :=
  let l1e := s.rootVa + stage2PageIndex ipa hvStage2L1Shift
  match stage2DescToTable s (m l1e) with
  | none => [l1e]
  | some l2 =>
    let l2e := l2 + stage2PageIndex ipa hvStage2L2Shift
    match stage2DescToTable s (m l2e) with
    | none => [l1e, l2e]
    | some l3 => [l1e, l2e, l3 + stage2PageIndex ipa hvStage2L3Shift]

variable {P : Platform} {vm : HvVm} {m : TablePools} {pages : PageMap} {t : Tree}

/-- Whatever a walk finds, it stays in the pool. -/
theorem Stores.walkCells_subset (h : Stores P vm m pages t) (ipa : HvIpa) :
    ∀ c ∈ walkCells vm.stage2 m ipa, c ∈ ownPool vm.id := by
  have hl1 : vm.stage2.rootVa + stage2PageIndex ipa hvStage2L1Shift =
      poolSlot vm.id 0 (pathIndex ipa hvStage2L1Shift) := by
    rw [h.holds.rootVa, poolSlot, Nat.zero_mul, Nat.add_zero]
    rfl
  have hm1 := poolSlot_mem vm.id 0 (pathIndex ipa hvStage2L1Shift) (by decide)
  rw [walkCells]
  simp only [hl1]
  rcases h.holds.descToTable_cell (pathIndex ipa hvStage2L1Shift) t.root (by decide) with
    ⟨q, hq, hq8, he⟩ | ⟨-, he⟩
  · have hl2 : vm.id * 4096 + q * 512 + stage2PageIndex ipa hvStage2L2Shift =
        poolSlot vm.id q (pathIndex ipa hvStage2L2Shift) := rfl
    have hm2 := poolSlot_mem vm.id q (pathIndex ipa hvStage2L2Shift) hq8
    simp only [he, hl2]
    rcases h.holds.descToTable_cell (pathIndex ipa hvStage2L2Shift) hq (by simp) with
      ⟨q2, hq2, hq28, he2⟩ | ⟨-, he2⟩
    · have hm3 := poolSlot_mem vm.id q2 (pathIndex ipa hvStage2L3Shift) hq28
      simp only [he2, List.forall_mem_cons]
      exact ⟨hm1, hm2, hm3, by simp⟩
    · simp only [he2, List.forall_mem_cons]
      exact ⟨hm1, hm2, by simp⟩
  · simp only [he, List.forall_mem_cons]
    exact ⟨hm1, by simp⟩

/-- A walk, allocating or not, touches the VM's own pool only. -/
theorem Refines.walk_own {a : AddressSpace} (h : Refines P vm m a) (ipa : HvIpa) (alloc : Bool) :
    let walk := stage2WalkL3 vm.stage2 m ipa alloc
    (∀ c ∈ walkCells vm.stage2 m ipa, c ∈ ownPool vm.id) ∧
      (∀ c ∈ walkCells walk.2.1 walk.2.2 ipa, c ∈ ownPool vm.id) ∧
      (∀ c, walk.1 = some c → c ∈ ownPool vm.id) ∧ SameOutside (ownPool vm.id) m walk.2.2 := by
  intro walk
  obtain ⟨-, t, ht⟩ := h
  refine ⟨ht.walkCells_subset ipa, ?_⟩
  cases alloc with
  | false =>
    rcases ht.walk ipa with ⟨n, hw, hn⟩ | ⟨hw, -⟩
    · simp only [walk, hw, Option.some.injEq]
      refine ⟨ht.walkCells_subset ipa, ?_, .refl _ _⟩
      rintro c rfl
      exact ht.slot_mem _ hn
    · simp only [walk, hw, reduceCtorEq, false_implies, implies_true, true_and]
      exact ⟨ht.walkCells_subset ipa, .refl _ _⟩
  | true =>
    obtain ⟨n, s, m', t', hw, hs, hf, hn⟩ := ht.walk_alloc ipa
    simp only [walk, hw]
    refine ⟨hs.walkCells_subset ipa, ?_, hf⟩
    intro c hc
    split at hc
    · rename_i hgot
      rw [← Option.some.inj hc]
      exact hs.slot_mem _ (hn hgot)
    · cases hc

variable {ι : Type*} [DecidableEq ι]

/-- The operations of one VM alone are separate if all of them together are. -/
theorem Separate.own {ops : List (ι × VmOp)} {ids ids' : ι → Option ℕ} (i : ι)
    (h : Separate P ids ops) (hi : ids' i = ids i) (ho : ∀ j, j ≠ i → ids' j = none) :
    Separate P ids' (own i ops) := by
  induction ops generalizing ids ids' with
  | nil => trivial
  | cons op ops ih =>
    obtain ⟨ha, hs⟩ := h
    have hkeep (id : ℕ) (j : ι) (hj : j ≠ i) : Function.update ids' i (some id) j = none := by
      rw [Function.update_of_ne hj, ho j hj]
    by_cases hk : op.1 = i
    · have hown : Transition.own i (op :: ops) = op :: Transition.own i ops :=
        List.filter_cons_of_pos (by simpa using hk)
      obtain ⟨k, o⟩ := op
      subst hk
      rw [hown]
      cases o with
      | init id vmid =>
        refine ⟨fun _ j hj => by rw [ho j hj]; simp, ih hs ?_ ?_⟩
        · dsimp only [idsAfter]
          split
          · rw [Function.update_self, Function.update_self]
          · exact hi
        · intro j hj
          dsimp only [idsAfter]
          split
          · exact hkeep id j hj
          · exact ho j hj
      | call c => exact ⟨by change ids' k ≠ none; rw [hi]; exact ha, ih hs hi ho⟩
    · have hown : Transition.own i (op :: ops) = Transition.own i ops :=
        List.filter_cons_of_neg (by simpa using hk)
      rw [hown]
      refine ih hs ?_ ho
      rw [hi]
      obtain ⟨k, o⟩ := op
      cases o with
      | init id vmid =>
        dsimp only [idsAfter]
        split
        · rw [Function.update_of_ne (fun e => hk e.symm)]
        · rfl
      | call c => rfl

theorem Initialised.own {ops : List (ι × VmOp)} {i : ι} (h : Initialised P ops i) :
    Initialised P (own i ops) i := by
  obtain ⟨id, vmid, hid, hmem⟩ := h
  exact ⟨id, vmid, hid, List.mem_filter.mpr ⟨hmem, by simp⟩⟩

theorem Refines.walk_same {a : AddressSpace} {vm' : HvVm} {m' : TablePools}
    (h : Refines P vm m a) (h' : Refines P vm' m' a) (hs : a.Sound) (ipa : HvIpa) :
    hvStage2Translate vm m ipa = hvStage2Translate vm' m' ipa := by
  have he := (h.translate hs ipa).trans (h'.translate hs ipa).symm
  cases h1 : hvStage2Translate vm m ipa <;> cases h2 : hvStage2Translate vm' m' ipa <;>
    rw [h1, h2] at he
  · exact congrArg _ (Except.error.inj he)
  · cases he
  · cases he
  · exact congrArg _ (BitVec.eq_of_toNat_eq (Except.ok.inj he))

/-- A VM sees the results and translations that it would see alone, and no walk leaves its own pool. -/
theorem vms_do_not_interfere (P : Platform) (s : SharedVms ι) (ops : List (ι × VmOp))
    (hsep : Separate P (fun _ => none) ops) (i : ι) :
    let run := exec (sharedStep P) s ops
    let alone := exec (sharedStep P) s (own i ops)
    ownResults i ops run.1 = alone.1 ∧
      (Initialised P ops i → ∀ ipa,
        hvStage2Translate (run.2.1 i) run.2.2 ipa =
          hvStage2Translate (alone.2.1 i) alone.2.2 ipa ∧
        ∀ alloc,
          let walk := stage2WalkL3 (run.2.1 i).stage2 run.2.2 ipa alloc
          (∀ c ∈ walkCells (run.2.1 i).stage2 run.2.2 ipa, c ∈ ownPool (run.2.1 i).id) ∧
          (∀ c ∈ walkCells walk.2.1 walk.2.2 ipa, c ∈ ownPool (run.2.1 i).id) ∧
          (∀ c, walk.1 = some c → c ∈ ownPool (run.2.1 i).id) ∧
          SameOutside (ownPool (run.2.1 i).id) run.2.2 walk.2.2) := by
  intro run alone
  have hown : Separate P (fun _ => none) (own i ops) := hsep.own i rfl (fun _ _ => rfl)
  have hrun := (Shared.start P s (fun _ => .empty)).exec ops hsep
  have halone := (Shared.start P s (fun _ => .empty)).exec (own i ops) hown
  obtain ⟨hres, hend⟩ := exec_interleave_own (AddressSpace.op P) i (fun _ => .empty)
    (fun _ => .empty) ops rfl
  refine ⟨?_, fun hi ipa => ?_⟩
  · change ownResults i ops (exec (sharedStep P) s ops).1 = _
    rw [hrun.1, hres]
    exact halone.1.symm
  · obtain ⟨href, hs⟩ := run_refines s (fun _ => .empty) ops hsep hi
    obtain ⟨href', -⟩ := run_refines s (fun _ => .empty) (own i ops) hown hi.own
    rw [← hend] at href'
    exact ⟨href.walk_same href' hs ipa, href.walk_own ipa⟩

theorem vms_do_not_interfere_two_vms :
    let run := exec (sharedStep .twoSlots) uninitialisedVms twoVmOps
    let alone := exec (sharedStep .twoSlots) uninitialisedVms (own false twoVmOps)
    ownResults false twoVmOps run.1 = alone.1 ∧
      hvStage2Translate (run.2.1 false) run.2.2 0x402345 =
        hvStage2Translate (alone.2.1 false) alone.2.2 0x402345 := by
  intro run alone
  obtain ⟨hcodes, hwalk⟩ := vms_do_not_interfere .twoSlots uninitialisedVms twoVmOps
    twoVmOps_separate false
  exact ⟨hcodes, (hwalk ⟨0, 1, by decide, by simp [twoVmOps]⟩ 0x402345).1⟩

end PiPervisor.Stage2
