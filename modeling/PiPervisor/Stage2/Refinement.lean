import PiPervisor.Stage2.TreeInvariant
import PiPervisor.Stage2.PageMap

/-! # The tables refine the page map

The tree in a VM's pool stores a page map: its nodes are the root and the
tables the map holds, its leaves the descriptors of the mapped pages. Every
call on the VM agrees with the abstract call: same code, the refinement is
kept, and no descriptor outside the VM's own pool changes.
-/
namespace PiPervisor.Stage2
open Library Library.Memory

/-- Leaf of a page in the tree. -/
def leafPath (v : ℕ) : Path := [pageIx v 18, pageIx v 9, pageIx v 0]

/-- The descriptor stored for a page. -/
def leafDesc : Option Mapping → HvStage2Desc
  | none => hvStage2DescInvalid
  | some e => pageDesc (BitVec.ofNat 64 (e.page * 4096)) e.attrs

structure Stores (P : Platform) (vm : HvVm) (m : TablePools) (pages : PageMap) (t : Tree) :
    Prop where
  holds : Holds P vm m t
  nodes : t.nodes = [] :: pages.held
  leaf : ∀ v < 2 ^ 20, t.leaf (leafPath v) = leafDesc (pages.entry v)

structure Refines (P : Platform) (vm : HvVm) (m : TablePools) (a : AddressSpace) : Prop where
  regions : vm.regions = a.regions
  stores : ∃ t, Stores P vm m a.pages t

/-- A call on a VM that agrees with an abstract one, writing to its own pool only. -/
structure Agrees (P : Platform) (vm : HvVm) (m : TablePools) (res : ℤ × HvVm × TablePools)
    (abs : ℤ × AddressSpace) : Prop where
  code : res.1 = abs.1
  id : res.2.1.id = vm.id
  vmid : res.2.1.vmid = vm.vmid
  refines : Refines P res.2.1 res.2.2 abs.2
  frame : SameOutside (ownPool vm.id) m res.2.2

theorem leafPath_inj {v w : ℕ} (hv : v < 2 ^ 20) (hw : w < 2 ^ 20) (h : leafPath v = leafPath w) :
    v = w := by
  simp only [leafPath, pageIx, List.cons.injEq, Fin.mk.injEq, and_true] at h
  omega

theorem pathIndex_eq (ipa : HvIpa) (s : ℕ) :
    pathIndex ipa (12 + s) = pageIx (ipa.toNat / 4096) s := by
  apply Fin.ext
  change stage2PageIndex ipa (12 + s) = _
  rw [stage2PageIndex_eq, Nat.pow_add, ← Nat.div_div_eq_div_mul]
  rfl

theorem leafDesc_mapped_iff (o : Option Mapping) : leafDesc o &&& 1 ≠ 0 ↔ ∃ e, o = some e := by
  cases o with
  | none => simp [leafDesc, hvStage2DescInvalid]
  | some e => simpa [leafDesc] using pageDesc_valid _ _

variable {P : Platform} {vm : HvVm} {m : TablePools} {pages : PageMap} {t : Tree}
  {a : AddressSpace}

theorem Agrees.trans {r r' : ℤ × HvVm × TablePools} {o o' : ℤ × AddressSpace}
    (h : Agrees P vm m r o) (h' : Agrees P r.2.1 r.2.2 r' o') : Agrees P vm m r' o' where
  code := h'.code
  id := h'.id.trans h.id
  vmid := h'.vmid.trans h.vmid
  refines := h'.refines
  frame := h.frame.trans (h.id ▸ h'.frame)

/-- A call that only returns a code. -/
theorem Refines.agrees (h : Refines P vm m a) (code : ℤ) : Agrees P vm m (code, vm, m) (code, a) :=
  ⟨rfl, rfl, rfl, h, .refl _ _⟩

theorem Stores.mem_nodes_iff (h : Stores P vm m pages t) {p : Path} {k : Index} :
    p ++ [k] ∈ t.nodes ↔ p ++ [k] ∈ pages.held := by
  rw [h.nodes, List.mem_cons]
  simp

theorem Stores.held_length (h : Stores P vm m pages t) : pages.held.length ≤ tableBudget := by
  have hf := h.holds.repr.fits
  rw [h.nodes, List.length_cons] at hf
  exact Nat.le_of_succ_le_succ hf

/-- Reserving the next table of a path is one allocating step of the walk. -/
theorem Stores.nextTable (h : Stores P vm m pages t) {n : ℕ} {p : Path} (k : Index)
    (hn : t.nodes[n]? = some p) (hp : p.length + 1 < 3) :
    ∃ q s m' t', stage2NextTable vm.stage2 m (poolSlot vm.id n k) =
        (if (pages.reserve tableBudget [p ++ [k]]).1 then some (vm.id * 4096 + q * 512) else none,
          s, m') ∧
      Stores P { vm with stage2 := s } m' (pages.reserve tableBudget [p ++ [k]]).2 t' ∧
      SameOutside (ownPool vm.id) m m' ∧
      ((pages.reserve tableBudget [p ++ [k]]).1 = true → t'.nodes[q]? = some (p ++ [k])) := by
  have hlen : t.nodes.length = pages.held.length + 1 := by rw [h.nodes, List.length_cons]
  rcases h.holds.nextTable k hn hp with
    ⟨q, hq, he⟩ | ⟨hk, hfree, s, m', he, hh, hs⟩ | ⟨hk, hfull, he⟩
  · have hmem := h.mem_nodes_iff.mp (t.mem_nodes hq)
    have hres : pages.reserve tableBudget [p ++ [k]] = (true, pages) := by
      rw [BudgetedMap.reserve, if_pos hmem, BudgetedMap.reserve]
    rw [hres]
    exact ⟨q, vm.stage2, m, t, he, h, .refl _ _, fun _ => hq⟩
  · have hmem := mt h.mem_nodes_iff.mpr hk
    have hres : pages.reserve tableBudget [p ++ [k]] =
        (true, { pages with held := pages.held ++ [p ++ [k]] }) := by
      rw [BudgetedMap.reserve, if_neg hmem, if_pos (by rw [tableBudget]; omega),
        BudgetedMap.reserve]
    rw [hres]
    refine ⟨t.nodes.length, s, m', _, he, ⟨hh, ?_, h.leaf⟩, hs, fun _ => ?_⟩
    · change t.nodes ++ [p ++ [k]] = [] :: (pages.held ++ [p ++ [k]])
      rw [h.nodes, List.cons_append]
    · exact List.getElem?_concat_length ..
  · have hmem := mt h.mem_nodes_iff.mpr hk
    have hres : pages.reserve tableBudget [p ++ [k]] = (false, pages) := by
      rw [BudgetedMap.reserve, if_neg hmem, if_neg (by rw [tableBudget]; omega)]
    rw [hres]
    exact ⟨0, vm.stage2, m, t, he, h, .refl _ _, fun hc => absurd hc (by simp)⟩

/-- The allocating walk reserves both tables of the page and ends at its leaf. -/
theorem Stores.walk_alloc (h : Stores P vm m pages t) (ipa : HvIpa) :
    let got := pages.reserve tableBudget (tablesOf (ipa.toNat / 4096))
    ∃ n s m' t', stage2WalkL3 vm.stage2 m ipa true =
        (if got.1 then some (poolSlot vm.id n (pageIx (ipa.toNat / 4096) 0)) else none, s, m') ∧
      Stores P { vm with stage2 := s } m' got.2 t' ∧ SameOutside (ownPool vm.id) m m' ∧
      (got.1 = true → t'.nodes[n]? =
        some [pageIx (ipa.toNat / 4096) 18, pageIx (ipa.toNat / 4096) 9]) := by
  intro got
  have hix1 : stage2PageIndex ipa hvStage2L1Shift = (pageIx (ipa.toNat / 4096) 18).val :=
    congrArg Fin.val (pathIndex_eq ipa 18)
  have hix2 : stage2PageIndex ipa hvStage2L2Shift = (pageIx (ipa.toNat / 4096) 9).val :=
    congrArg Fin.val (pathIndex_eq ipa 9)
  have hix3 : stage2PageIndex ipa hvStage2L3Shift = (pageIx (ipa.toNat / 4096) 0).val :=
    congrArg Fin.val (pathIndex_eq ipa 0)
  have hgot : got = _ := BudgetedMap.reserve_cons tableBudget pages [pageIx (ipa.toNat / 4096) 18]
    [[pageIx (ipa.toNat / 4096) 18, pageIx (ipa.toNat / 4096) 9]]
  generalize pageIx (ipa.toNat / 4096) 18 = i1 at *
  generalize pageIx (ipa.toNat / 4096) 9 = i2 at *
  generalize pageIx (ipa.toNat / 4096) 0 = i3 at *
  obtain ⟨q, s, m1, t1, he1, hs1, hf1, hq1⟩ := h.nextTable i1 t.root (by decide)
  have hl1 : vm.stage2.rootVa + stage2PageIndex ipa hvStage2L1Shift = poolSlot vm.id 0 i1 := by
    rw [h.holds.rootVa, hix1, poolSlot]
    omega
  simp only [List.nil_append] at he1 hs1 hq1
  rw [stage2WalkL3]
  simp only [if_true, hl1, he1]
  by_cases hr : (pages.reserve tableBudget [[i1]]).1 = true
  · rw [hgot]
    simp only [if_pos hr]
    have hn1 := hq1 hr
    obtain ⟨q2, s2, m2, t2, he2, hs2, hf2, hq2⟩ := hs1.nextTable i2 hn1 (by simp)
    simp only [List.cons_append, List.nil_append] at he2 hs2 hq2
    have hl2 : vm.id * 4096 + q * 512 + stage2PageIndex ipa hvStage2L2Shift =
        poolSlot vm.id q i2 := by
      rw [hix2, poolSlot]
    simp only [hl2, he2, hix3]
    refine ⟨q2, s2, m2, t2, ?_, hs2, hf1.trans hf2, hq2⟩
    cases ((pages.reserve tableBudget [[i1]]).2.reserve tableBudget [[i1, i2]]).1 <;> rfl
  · rw [hgot]
    simp only [if_neg hr]
    exact ⟨0, s, m1, t1, rfl, hs1, hf1, fun hc => absurd hc (by simp)⟩

/-- The plain walk ends at the page's leaf, or at a missing table and then the page is unmapped. -/
theorem Stores.walk (h : Stores P vm m pages t) (ipa : HvIpa) :
    (∃ n, stage2WalkL3 vm.stage2 m ipa false =
        (some (poolSlot vm.id n (pageIx (ipa.toNat / 4096) 0)), vm.stage2, m) ∧
      t.nodes[n]? = some [pageIx (ipa.toNat / 4096) 18, pageIx (ipa.toNat / 4096) 9]) ∨
    (stage2WalkL3 vm.stage2 m ipa false = (none, vm.stage2, m) ∧
      [pageIx (ipa.toNat / 4096) 18, pageIx (ipa.toNat / 4096) 9] ∉ t.nodes) := by
  have hix1 : stage2PageIndex ipa hvStage2L1Shift = (pageIx (ipa.toNat / 4096) 18).val :=
    congrArg Fin.val (pathIndex_eq ipa 18)
  have hix2 : stage2PageIndex ipa hvStage2L2Shift = (pageIx (ipa.toNat / 4096) 9).val :=
    congrArg Fin.val (pathIndex_eq ipa 9)
  have hix3 : stage2PageIndex ipa hvStage2L3Shift = (pageIx (ipa.toNat / 4096) 0).val :=
    congrArg Fin.val (pathIndex_eq ipa 0)
  generalize pageIx (ipa.toNat / 4096) 18 = i1 at *
  generalize pageIx (ipa.toNat / 4096) 9 = i2 at *
  generalize pageIx (ipa.toNat / 4096) 0 = i3 at *
  have hl1 : vm.stage2.rootVa + stage2PageIndex ipa hvStage2L1Shift = poolSlot vm.id 0 i1 := by
    rw [h.holds.rootVa, hix1, poolSlot]
    omega
  rw [stage2WalkL3]
  simp only [Bool.false_eq_true, if_false, hl1]
  rcases h.holds.descToTable_cell i1 t.root (by decide) with ⟨q, hq, -, he⟩ | ⟨hk, he⟩
  · have hl2 : vm.id * 4096 + q * 512 + stage2PageIndex ipa hvStage2L2Shift =
        poolSlot vm.id q i2 := by
      rw [hix2, poolSlot]
    simp only [he, hl2]
    rcases h.holds.descToTable_cell i2 hq (by simp) with ⟨q2, hq2, -, he2⟩ | ⟨hk2, he2⟩
    · simp only [he2, hix3]
      exact .inl ⟨q2, rfl, hq2⟩
    · simp only [he2]
      exact .inr ⟨trivial, hk2⟩
  · simp only [he]
    exact .inr ⟨trivial, fun hc => hk (t.parent [i1] i2 hc)⟩

theorem Stores.leafCell (h : Stores P vm m pages t) {v n : ℕ} (hv : v < 2 ^ 20)
    (hn : t.nodes[n]? = some [pageIx v 18, pageIx v 9]) :
    m (poolSlot vm.id n (pageIx v 0)) = leafDesc (pages.entry v) :=
  (h.holds.repr.leaves n _ (pageIx v 0) hn rfl).trans (h.leaf v hv)

theorem Stores.entry_none (h : Stores P vm m pages t) {v : ℕ} (hv : v < 2 ^ 20)
    (hn : [pageIx v 18, pageIx v 9] ∉ t.nodes) : pages.entry v = none := by
  have hbare : leafDesc (pages.entry v) = hvStage2DescInvalid :=
    (h.leaf v hv).symm.trans (t.bare _ (pageIx v 0) hn)
  by_contra hne
  have := (leafDesc_mapped_iff _).mpr (Option.ne_none_iff_exists'.mp hne)
  rw [hbare] at this
  exact this (by decide)

/-- A page whose L3 table is in the tree has both of its tables. -/
theorem Stores.tables_of_node (h : Stores P vm m pages t) {v : ℕ}
    (hl3 : [pageIx v 18] ++ [pageIx v 9] ∈ t.nodes) : ∀ r ∈ tablesOf v, r ∈ pages.held := by
  have hl2 : [] ++ [pageIx v 18] ∈ t.nodes := t.parent _ _ hl3
  intro r hr
  simp only [tablesOf, List.mem_cons, List.not_mem_nil, or_false] at hr
  rcases hr with rfl | rfl
  · exact h.mem_nodes_iff.mp hl2
  · exact h.mem_nodes_iff.mp hl3

/-- Writing the leaf of a page changes the entry of that page only. -/
theorem Stores.setLeaf (h : Stores P vm m pages t) {v n : ℕ} (hv : v < 2 ^ 20)
    (hn : t.nodes[n]? = some [pageIx v 18, pageIx v 9]) (o : Option Mapping) :
    Stores P vm (Function.update m (poolSlot vm.id n (pageIx v 0)) (leafDesc o))
      { pages with entry := Function.update pages.entry v o }
      (t.setLeaf _ (pageIx v 0) (leafDesc o) (t.mem_nodes hn)) := by
  have hh := h.holds
  refine ⟨⟨hh.id_lt, hh.rootVa, hh.poolVa, hh.rootPa, hh.poolPa, hh.poolPages, hh.poolUsed, ?_⟩,
    h.nodes, ?_⟩
  · apply hh.repr.setLeaf (leafDesc o) hn rfl
    intro a j _
    rw [Function.update_apply]
    by_cases he : a = n ∧ j = pageIx v 0
    · obtain ⟨rfl, rfl⟩ := he
      rw [if_pos rfl, if_pos ⟨rfl, rfl⟩]
    · rw [if_neg he, if_neg (fun e => he (poolSlot_inj e))]
  · intro w hw
    change Function.update t.leaf (leafPath v) (leafDesc o) (leafPath w) =
      leafDesc (Function.update pages.entry v o w)
    by_cases he : w = v
    · subst he
      rw [Function.update_self, Function.update_self]
    · rw [Function.update_of_ne (fun e => he (leafPath_inj hw hv e)), Function.update_of_ne he]
      exact h.leaf w hw

theorem Stores.slot_mem (h : Stores P vm m pages t) {n : ℕ} {p : Path} (k : Index)
    (hn : t.nodes[n]? = some p) : poolSlot vm.id n k ∈ ownPool vm.id :=
  poolSlot_mem _ _ _ (lt_of_lt_of_le (t.lt_length hn) h.holds.repr.fits)

/-- Mapping a page is an insertion. -/
theorem Refines.mapPage (h : Refines P vm m a) {ipa pa : BitVec 64} (attrs : BitVec 64)
    (hi : ipa.toNat < 2 ^ 32) (hp : pa.toNat % 4096 = 0) :
    let ins := a.pages.insert tableBudget tablesOf (ipa.toNat / 4096) ⟨pa.toNat / 4096, attrs⟩
    Agrees P vm m (stage2MapPage vm m ipa pa attrs)
      (AddressSpace.outcomeCode ins.1, { a with pages := ins.2 }) := by
  intro ins
  have hv : ipa.toNat / 4096 < 2 ^ 20 := by omega
  obtain ⟨hreg, t, ht⟩ := h
  obtain ⟨n, s, m', t', he, hs, hf, hn⟩ := ht.walk_alloc ipa
  have hpa : pageDesc pa attrs = leafDesc (some ⟨pa.toNat / 4096, attrs⟩) := by
    have : pa.toNat / 4096 * 4096 = pa.toNat := by omega
    rw [leafDesc, this, BitVec.ofNat_toNat, BitVec.setWidth_eq]
  simp only [ins, BudgetedMap.insert]
  rw [stage2MapPage, he]
  rcases hr : a.pages.reserve tableBudget (tablesOf (ipa.toNat / 4096)) with ⟨ok, pages'⟩
  rw [hr] at hs hn
  cases ok with
  | false => exact ⟨rfl, rfl, rfl, ⟨hreg, t', hs⟩, hf⟩
  | true =>
    have hleaf := hs.leafCell hv (hn rfl)
    simp only [if_true, hleaf]
    cases hent : pages'.entry (ipa.toNat / 4096) with
    | some e =>
      rw [if_pos ((leafDesc_mapped_iff _).mpr ⟨e, rfl⟩)]
      exact ⟨rfl, rfl, rfl, ⟨hreg, t', hs⟩, hf⟩
    | none =>
      rw [if_neg (by rw [leafDesc_mapped_iff]; simp), hpa]
      exact ⟨rfl, rfl, rfl, ⟨hreg, _, hs.setLeaf hv (hn rfl) _⟩,
        hf.trans (.update _ _ (hs.slot_mem _ (hn rfl)))⟩

theorem toNat_add_pageOffset {b : BitVec 64} {k : ℕ} (h : b.toNat + k * 4096 < 2 ^ 32) :
    (b + BitVec.ofNat 64 k * hvStage2PageSize).toNat = b.toNat + k * 4096 := by
  have hk : (BitVec.ofNat 64 k * hvStage2PageSize).toNat = k * 4096 := by
    rw [BitVec.toNat_mul, BitVec.toNat_ofNat]
    change k % 2 ^ 64 * 4096 % 2 ^ 64 = _
    omega
  rw [BitVec.toNat_add, hk]
  omega

/-- Mapping the pages of a range one after the other is inserting their list. -/
theorem Refines.mapPages (h : Refines P vm m a) {ipa pa : BitVec 64} (attrs : BitVec 64)
    (ks : List ℕ) (hp : pa.toNat % 4096 = 0)
    (hfit : ∀ k ∈ ks, ipa.toNat + k * 4096 < 2 ^ 32 ∧ pa.toNat + k * 4096 < 2 ^ 32) :
    let ins := a.pages.insertAll tableBudget tablesOf
      (ks.map fun k => (ipa.toNat / 4096 + k, ⟨pa.toNat / 4096 + k, attrs⟩))
    Agrees P vm m
      (stage2MapPages vm m ipa pa attrs (ks.map (BitVec.ofNat 64 · * hvStage2PageSize)))
      (AddressSpace.outcomeCode ins.1, { a with pages := ins.2 }) := by
  induction ks generalizing vm m a with
  | nil => exact h.agrees _
  | cons k ks ih =>
    obtain ⟨hik, hpk⟩ := hfit k List.mem_cons_self
    have hi' := toNat_add_pageOffset hik
    have hp' := toNat_add_pageOffset hpk
    have hmap := h.mapPage attrs (hi'.trans_lt hik) (by rw [hp']; omega)
    have hvi : (ipa.toNat + k * 4096) / 4096 = ipa.toNat / 4096 + k := by omega
    have hvp : (pa.toNat + k * 4096) / 4096 = pa.toNat / 4096 + k := by omega
    rw [hi', hp', hvi, hvp] at hmap
    simp only [List.map_cons, stage2MapPages, BudgetedMap.insertAll] at hmap ⊢
    rcases hins : a.pages.insert tableBudget tablesOf (ipa.toNat / 4096 + k)
      ⟨pa.toNat / 4096 + k, attrs⟩ with ⟨o, pages'⟩
    rw [hins] at hmap
    rcases hres : stage2MapPage vm m (ipa + BitVec.ofNat 64 k * hvStage2PageSize)
      (pa + BitVec.ofNat 64 k * hvStage2PageSize) attrs with ⟨res, vm', m'⟩
    rw [hres] at hmap
    have hcode : res = AddressSpace.outcomeCode o := hmap.code
    have hstop := AddressSpace.outcomeCode_eq_ok_iff o
    cases o with
    | inserted =>
      dsimp only
      rw [if_neg (by rw [hcode]; exact not_not.mpr rfl)]
      exact hmap.trans (ih hmap.refines (fun j hj => hfit j (List.mem_cons_of_mem _ hj)))
    | present =>
      dsimp only
      rw [if_pos (by rw [hcode]; simp [hstop])]
      exact hmap
    | exhausted =>
      dsimp only
      rw [if_pos (by rw [hcode]; simp [hstop])]
      exact hmap

end PiPervisor.Stage2
