import PiPervisor.Library.RadixTree
import PiPervisor.Stage2.Table

/-! # The pool of a VM holds a tree

The eight pages of a VM's pool represent a radix tree of depth three whose
nodes are the allocated tables. Finding the next-level table reads a link of
that tree, and allocating one adds a node; no cell outside the pool changes.
-/
namespace PiPervisor.Stage2
open Library Library.Memory

abbrev Index := Fin 512
abbrev Path := List Index
abbrev Tree := RadixTree Index HvStage2Desc 3 hvStage2DescInvalid

/-- Index of an address at the level with this shift. -/
def pathIndex (ipa : HvIpa) (shift : ℕ) : Index :=
  ⟨stage2PageIndex ipa shift, stage2PageIndex_lt ipa shift⟩

/-- The descriptors of the pool of the VM with this id. -/
def ownPool (id : ℕ) : Set ℕ := Set.Ico (id * 4096) (id * 4096 + 4096)

theorem ownPool_disjoint {i j : ℕ} (h : i ≠ j) : Disjoint (ownPool i) (ownPool j) := by
  rw [ownPool, ownPool, Set.Ico_disjoint_Ico]
  omega

/-- Number of the descriptor `k` of the table `n` of a pool. -/
def poolSlot (id n : ℕ) (k : Index) : ℕ := id * 4096 + n * 512 + k.val

theorem poolSlot_mem (id n : ℕ) (k : Index) (hn : n < 8) : poolSlot id n k ∈ ownPool id := by
  have := k.isLt
  rw [ownPool, Set.mem_Ico, poolSlot]
  omega

theorem poolSlot_inj {id n m : ℕ} {k j : Index} (h : poolSlot id n k = poolSlot id m j) :
    n = m ∧ k = j := by
  have := k.isLt
  have := j.isLt
  simp only [poolSlot] at h
  exact ⟨by omega, Fin.ext (by omega)⟩

variable {P : Platform}

/-- Physical address of the table `n` of a pool. -/
def tableAddr (P : Platform) (id n : ℕ) : ℕ := P.stage2TablePools + id * 32768 + n * 4096

theorem tableAddr_lt {id n : ℕ} (hid : id < P.hvMaxVms) (hn : n < 8) :
    tableAddr P id n < 2 ^ 40 := by
  have h := P.pools_below
  have : (id + 1) * 32768 ≤ P.hvMaxVms * 32768 := Nat.mul_le_mul_right _ hid
  rw [tableAddr]
  omega

theorem tableAddr_aligned (id n : ℕ) : tableAddr P id n % 4096 = 0 := by
  have h := P.pools_aligned
  rw [tableAddr]
  omega

/-- The descriptor that links the table `n` of a pool. -/
def link (P : Platform) (id n : ℕ) : HvStage2Desc := tableDesc (BitVec.ofNat 64 (tableAddr P id n))

/-- The VM's stage-2 state and the memory of its pool hold the tree. -/
structure Holds (P : Platform) (vm : HvVm) (m : TablePools) (t : Tree) : Prop where
  id_lt : vm.id < P.hvMaxVms
  rootVa : vm.stage2.rootVa = vm.id * 4096
  poolVa : vm.stage2.poolVa = vm.id * 4096
  rootPa : vm.stage2.rootPa = BitVec.ofNat 64 (tableAddr P vm.id 0)
  poolPa : vm.stage2.poolPa = BitVec.ofNat 64 (tableAddr P vm.id 0)
  poolPages : vm.stage2.poolPages = 8
  poolUsed : vm.stage2.poolUsed = t.nodes.length
  repr : t.Represents (link P vm.id) 8 (fun n k => m (poolSlot vm.id n k))

variable {vm : HvVm} {m : TablePools} {t : Tree}

theorem Holds.toNat_addr (h : Holds P vm m t) {n : ℕ} (hn : n < 8) :
    (BitVec.ofNat 64 (tableAddr P vm.id n)).toNat = tableAddr P vm.id n := by
  rw [BitVec.toNat_ofNat, Nat.mod_eq_of_lt]
  exact (tableAddr_lt h.id_lt hn).trans (by decide)

theorem Holds.tableAt (h : Holds P vm m t) (n : ℕ) :
    stage2TableAt vm.stage2 n = vm.id * 4096 + n * 512 := by
  rw [stage2TableAt, h.poolVa]
  rfl

theorem Holds.tablePa (h : Holds P vm m t) {n : ℕ} (hn : n < 8) :
    stage2TablePa vm.stage2 n = BitVec.ofNat 64 (tableAddr P vm.id n) := by
  have h0 := h.toNat_addr (n := 0) (by decide)
  have hlt := tableAddr_lt h.id_lt hn
  apply BitVec.eq_of_toNat_eq
  have he : (BitVec.ofNat 64 n * hvStage2PageSize).toNat = n * 4096 := by
    rw [BitVec.toNat_mul, BitVec.toNat_ofNat]
    change n % 2 ^ 64 * 4096 % 2 ^ 64 = _
    omega
  rw [stage2TablePa, h.poolPa, BitVec.toNat_add, he, h0, h.toNat_addr hn]
  simp only [tableAddr] at hlt ⊢
  omega

/-- A link leads back to its table, and nothing else does. -/
theorem Holds.descToTable_link (h : Holds P vm m t) {n : ℕ} (hn : n < 8) :
    stage2DescToTable vm.stage2 (link P vm.id n) = some (vm.id * 4096 + n * 512) := by
  have h0 := h.toNat_addr (n := 0) (by decide)
  have h1 := h.toNat_addr hn
  have hlt := tableAddr_lt h.id_lt hn
  have haddr : link P vm.id n &&& hvStage2DescAddrMask = BitVec.ofNat 64 (tableAddr P vm.id n) :=
    tableDesc_addr _ (by rw [h1]; exact tableAddr_aligned _ _) (by rw [h1]; exact hlt)
  have hsub : (BitVec.ofNat 64 (tableAddr P vm.id n) - vm.stage2.poolPa).toNat = n * 4096 := by
    rw [BitVec.toNat_sub, h.poolPa, h0, h1]
    simp only [tableAddr] at hlt ⊢
    omega
  have hge : ¬ BitVec.ofNat 64 (tableAddr P vm.id n) < vm.stage2.poolPa := by
    rw [BitVec.lt_def, h.poolPa, h0, h1]
    simp only [tableAddr]
    omega
  have hal : stage2Aligned (BitVec.ofNat 64 (tableAddr P vm.id n) - vm.stage2.poolPa) = true := by
    rw [stage2Aligned_iff, hsub]
    exact Nat.mul_mod_left n 4096
  have hidx : (((BitVec.ofNat 64 (tableAddr P vm.id n) - vm.stage2.poolPa) /
      hvStage2PageSize).setWidth 32).toNat = n := by
    rw [BitVec.toNat_setWidth, BitVec.toNat_udiv, hsub]
    change n * 4096 / 4096 % 2 ^ 32 = n
    omega
  have htag : link P vm.id n &&& hvStage2DescTable = hvStage2DescTable := tableDesc_tag _
  rw [stage2DescToTable, if_neg (not_not.mpr htag)]
  dsimp only
  rw [haddr, if_neg (by simp [hge, hal]), hidx, h.poolPages, if_neg (by omega), h.tableAt]

theorem descToTable_invalid (s : HvStage2) : stage2DescToTable s hvStage2DescInvalid = none := by
  rw [stage2DescToTable, if_pos (by decide)]

/-- Following the descriptor `k` of an interior table finds the child or nothing. -/
theorem Holds.descToTable_cell (h : Holds P vm m t) {n : ℕ} {p : Path} (k : Index)
    (hn : t.nodes[n]? = some p) (hp : p.length + 1 < 3) :
    (∃ q, t.nodes[q]? = some (p ++ [k]) ∧ q < 8 ∧
      stage2DescToTable vm.stage2 (m (poolSlot vm.id n k)) = some (vm.id * 4096 + q * 512)) ∨
    (p ++ [k] ∉ t.nodes ∧ stage2DescToTable vm.stage2 (m (poolSlot vm.id n k)) = none) := by
  rcases h.repr.interior k hn hp with ⟨q, hq, hc⟩ | ⟨hk, hc⟩
  · have hq8 : q < 8 := lt_of_lt_of_le (t.lt_length hq) h.repr.fits
    exact .inl ⟨q, hq, hq8, by rw [hc]; exact h.descToTable_link hq8⟩
  · exact .inr ⟨hk, by rw [hc]; exact descToTable_invalid _⟩

/-- Zeroing the next free page and linking it is one allocation in the tree. -/
theorem Holds.allocate (h : Holds P vm m t) {n : ℕ} {p : Path} {k : Index}
    (hn : t.nodes[n]? = some p) (hk : p ++ [k] ∉ t.nodes) (hp : p.length + 1 < 3)
    (hfree : t.nodes.length < 8) :
    let m' := Function.update
      (stage2ZeroTable m (stage2TableAt vm.stage2 t.nodes.length)) (poolSlot vm.id n k)
      (link P vm.id t.nodes.length)
    Holds P { vm with stage2 := { vm.stage2 with poolUsed := vm.stage2.poolUsed + 1 } } m'
      (t.addNode p k (t.mem_nodes hn) hk hp) ∧ SameOutside (ownPool vm.id) m m' := by
  intro m'
  have hn8 : n < 8 := lt_of_lt_of_le (t.lt_length hn) h.repr.fits
  have hne := t.lt_length hn
  constructor
  · refine ⟨h.id_lt, h.rootVa, h.poolVa, h.rootPa, h.poolPa, h.poolPages, ?_, ?_⟩
    · rw [h.poolUsed]
      change _ = (t.nodes ++ [p ++ [k]]).length
      rw [List.length_append, List.length_singleton]
    · apply h.repr.addNode hn hk hp hfree
      intro a j ha
      by_cases he : a = n ∧ j = k
      · obtain ⟨rfl, rfl⟩ := he
        rw [if_pos ⟨rfl, rfl⟩]
        exact Function.update_self _ _ _
      · rw [if_neg he]
        change Function.update _ _ _ _ = _
        rw [Function.update_of_ne (fun e => he (poolSlot_inj e)), stage2ZeroTable, fill_apply,
          h.tableAt]
        split
        · rename_i hin
          have hj := j.isLt
          simp only [poolSlot, hvStage2DescsPerTable] at hin
          have ha' : a = t.nodes.length := by omega
          subst ha'
          exact (h.repr.unused _ j le_rfl hfree).symm
        · rfl
  · refine SameOutside.trans (SameOutside.fill m _ _ _ ?_)
      (SameOutside.update _ _ (poolSlot_mem vm.id n k hn8))
    intro x h1 h2
    rw [h.tableAt] at h1 h2
    simp only [hvStage2DescsPerTable] at h2
    rw [ownPool, Set.mem_Ico]
    omega

/-- What the allocating search for a child does: find it, allocate it, or fail on a full pool. -/
theorem Holds.nextTable (h : Holds P vm m t) {n : ℕ} {p : Path} (k : Index)
    (hn : t.nodes[n]? = some p) (hp : p.length + 1 < 3) :
    (∃ q, t.nodes[q]? = some (p ++ [k]) ∧ stage2NextTable vm.stage2 m (poolSlot vm.id n k) =
      (some (vm.id * 4096 + q * 512), vm.stage2, m)) ∨
    (∃ hk : p ++ [k] ∉ t.nodes, t.nodes.length < 8 ∧ ∃ s m',
      stage2NextTable vm.stage2 m (poolSlot vm.id n k) =
        (some (vm.id * 4096 + t.nodes.length * 512), s, m') ∧
      Holds P { vm with stage2 := s } m' (t.addNode p k (t.mem_nodes hn) hk hp) ∧
      SameOutside (ownPool vm.id) m m') ∨
    (p ++ [k] ∉ t.nodes ∧ ¬ t.nodes.length < 8 ∧
      stage2NextTable vm.stage2 m (poolSlot vm.id n k) = (none, vm.stage2, m)) := by
  rcases h.repr.interior k hn hp with ⟨q, hq, hc⟩ | ⟨hk, hc⟩
  · have hq8 : q < 8 := lt_of_lt_of_le (t.lt_length hq) h.repr.fits
    have htag : link P vm.id q &&& hvStage2DescTable = hvStage2DescTable := tableDesc_tag _
    exact .inl ⟨q, hq, by rw [stage2NextTable, hc, if_pos htag, h.descToTable_link hq8]⟩
  · refine .inr ?_
    rw [stage2NextTable, hc, if_neg (by decide), if_neg (by decide), stage2AllocTable]
    by_cases hfree : t.nodes.length < 8
    · refine .inl ⟨hk, hfree, _, _, ?_, h.allocate hn hk hp hfree⟩
      have hpa : tableDesc (stage2TablePa
          { vm.stage2 with poolUsed := vm.stage2.poolUsed + 1 } vm.stage2.poolUsed) =
          link P vm.id t.nodes.length := by
        rw [h.poolUsed]
        exact congrArg tableDesc (h.tablePa hfree)
      rw [if_neg (by rw [h.poolPages, h.poolUsed]; omega)]
      dsimp only
      rw [hpa, h.poolUsed, h.tableAt]
    · exact .inr ⟨hk, hfree, by rw [if_pos (by rw [h.poolPages, h.poolUsed]; omega)]⟩

theorem zeroTables_apply (n va : ℕ) (m : TablePools) (x : ℕ) :
    (List.range n).foldl (fun m i => stage2ZeroTable m (va + i * 512)) m x =
      if va ≤ x ∧ x < va + n * 512 then hvStage2DescInvalid else m x := by
  induction n with
  | zero =>
    rw [if_neg (by omega)]
    rfl
  | succ n ih =>
    rw [List.range_succ, List.foldl_append, List.foldl_cons, List.foldl_nil, stage2ZeroTable,
      fill_apply, ih, hvStage2DescsPerTable]
    split_ifs <;> first | rfl | omega

/-- The pool is zeroed whatever it held, and one table is in use. -/
theorem hvStage2Init_eq (vm : HvVm) (m : TablePools) (hid : vm.id < P.hvMaxVms) :
    ∃ s m', hvStage2Init P vm m = (hvStage2Ok, { vm with stage2 := s }, m') ∧
      Holds P { vm with stage2 := s } m'
        (RadixTree.bareRoot 3 hvStage2DescInvalid (by decide)) ∧
      SameOutside (ownPool vm.id) m m' := by
  have hpa : P.stage2TablePools + 8 * (vm.id * (hvStage2MaxTablePages * hvStage2DescsPerTable)) =
      tableAddr P vm.id 0 := by
    simp only [hvStage2MaxTablePages, hvStage2DescsPerTable, tableAddr]
    omega
  have hroot (pa : HvPa) : pa + BitVec.ofNat 64 0 * hvStage2PageSize = pa := by
    rw [BitVec.zero_mul, BitVec.add_zero]
  rw [hvStage2Init, if_neg (by omega)]
  simp only [stage2TablePa, hroot, hpa, stage2TableAt, Nat.zero_mul, Nat.add_zero]
  refine ⟨_, _, rfl, ⟨hid, rfl, rfl, rfl, rfl, rfl, rfl, ?_⟩, ?_⟩
  · apply RadixTree.represents_bareRoot (by decide) (by decide)
    intro n k hn
    have hk := k.isLt
    refine (zeroTables_apply 8 (vm.id * 4096) m (poolSlot vm.id n k)).trans (if_pos ?_)
    rw [poolSlot]
    omega
  · intro x hx
    refine (zeroTables_apply 8 (vm.id * 4096) m x).trans (if_neg ?_)
    rwa [ownPool, Set.mem_Ico] at hx

end PiPervisor.Stage2
