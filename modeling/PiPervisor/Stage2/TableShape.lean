import PiPervisor.Stage2.Build
import PiPervisor.Stage2.Policy

/-! # The shape of the tables in memory

What a walk can reach from the root of a VM is a tree of tables. Every L1 and L2
descriptor is zero or the link to a page of the pool that is in use, each such page but
the root is linked once, and the rest of the pool is zero. A table is only allocated
for a block that has none.
-/
namespace PiPervisor.Stage2
open Library Library.Transition AddressSpace

section Shape

/-- A table of this level, reached from the root by descriptors that lead to tables. -/
inductive TableAt (s : HvStage2) (m : TablePools) : ℕ → ℕ → Prop
  | root : TableAt s m 1 s.rootVa
  | next {level table k next : ℕ} (ht : TableAt s m level table) (hl : level < 3)
      (hk : k < hvStage2DescsPerTable) (hd : stage2DescToTable s (m (table + k)) = some next) :
      TableAt s m (level + 1) next

/-- The number of an L1 or L2 descriptor. -/
def IsTableEntry (s : HvStage2) (m : TablePools) (entry : ℕ) : Prop :=
  ∃ level table k, TableAt s m level table ∧ level < 3 ∧ k < hvStage2DescsPerTable ∧
    entry = table + k

/-- The 1 GiB blocks that have an L2 table. -/
def l2Blocks (s : HvStage2) (m : TablePools) : Set ℕ :=
  {b | ∃ x : HvIpa, x.toNat < 2 ^ 32 ∧ x.toNat / 2 ^ 30 = b ∧
    stage2DescToTable s (m (s.rootVa + stage2PageIndex x hvStage2L1Shift)) ≠ none}

/-- The 2 MiB blocks that have an L3 table. -/
def l3Blocks (s : HvStage2) (m : TablePools) : Set ℕ :=
  {b | ∃ x : HvIpa, x.toNat < 2 ^ 32 ∧ x.toNat / 2 ^ 21 = b ∧ (stage2WalkL3 s m x false).1 ≠ none}

/-- The tables of a pool form a tree that is rooted at page 0. -/
structure TablesShape (s : HvStage2) (m : TablePools) : Prop where
  used : 1 ≤ s.poolUsed ∧ s.poolUsed ≤ s.poolPages
  root : s.rootVa = stage2TableAt s 0
  linked : ∀ entry, IsTableEntry s m entry → m entry ≠ hvStage2DescInvalid →
    ∃ page, 1 ≤ page ∧ page < s.poolUsed ∧ m entry = tableDesc (stage2TablePa s page) ∧
      stage2DescToTable s (m entry) = some (stage2TableAt s page)
  once : ∀ page, 1 ≤ page → page < s.poolUsed →
    ∃! entry, IsTableEntry s m entry ∧
      stage2DescToTable s (m entry) = some (stage2TableAt s page)
  level : ∀ page < s.poolUsed, ∃! level, TableAt s m level (stage2TableAt s page)
  unused : ∀ page, s.poolUsed ≤ page → page < s.poolPages → ∀ k < hvStage2DescsPerTable,
    m (stage2TableAt s page + k) = hvStage2DescInvalid
  blocks : s.poolUsed - 1 = (l2Blocks s m).ncard + (l3Blocks s m).ncard

end Shape

variable {P : Platform} {vm : HvVm} {m : TablePools} {t : Tree} {pages : PageMap}
  {a : AddressSpace}

section Reached

/-- A descriptor of an interior table leads to the child, if there is one. -/
theorem Holds.descToTable_eq_some_iff (h : Holds P vm m t) {n : ℕ} {p : Path} (k : Index)
    (hn : t.nodes[n]? = some p) (hp : p.length + 1 < 3) {next : ℕ} :
    stage2DescToTable vm.stage2 (m (poolSlot vm.id n k)) = some next ↔
      ∃ q, t.nodes[q]? = some (p ++ [k]) ∧ next = stage2TableAt vm.stage2 q := by
  rcases h.descToTable_cell k hn hp with ⟨q, hq, -, he⟩ | ⟨hk, he⟩
  · rw [he, ← h.tableAt, Option.some_inj]
    constructor
    · rintro rfl
      exact ⟨q, hq, rfl⟩
    · rintro ⟨q', hq', rfl⟩
      rw [t.nodes_inj hq hq']
  · rw [he]
    apply iff_of_false nofun
    rintro ⟨q, hq, -⟩
    exact hk (t.mem_nodes hq)

theorem Holds.tableAt_add (h : Holds P vm m t) (n : ℕ) (k : Index) :
    stage2TableAt vm.stage2 n + k.val = poolSlot vm.id n k := by
  rw [h.tableAt, poolSlot]

theorem Holds.tableAt_injective (h : Holds P vm m t) :
    Function.Injective (stage2TableAt vm.stage2) := by
  intro n n' he
  rw [h.tableAt, h.tableAt] at he
  omega

/-- The tables that can be reached are the nodes of the tree. -/
theorem Holds.tableAt_iff (h : Holds P vm m t) {level table : ℕ} :
    TableAt vm.stage2 m level table ↔
      ∃ n p, t.nodes[n]? = some p ∧ level = p.length + 1 ∧ table = stage2TableAt vm.stage2 n := by
  constructor
  · intro hr
    induction hr with
    | root => exact ⟨0, [], t.root, rfl, by rw [h.rootVa, h.tableAt]; omega⟩
    | @next level table k next _ hl hk hd ih =>
      obtain ⟨n, p, hn, rfl, rfl⟩ := ih
      rw [h.tableAt_add n ⟨k, hk⟩, h.descToTable_eq_some_iff _ hn hl] at hd
      obtain ⟨q, hq, rfl⟩ := hd
      exact ⟨q, _, hq, by rw [List.length_append, List.length_singleton], rfl⟩
  · rintro ⟨n, p, hn, rfl, rfl⟩
    -- along the path of the node, from the root down
    induction p using List.reverseRecOn generalizing n with
    | nil =>
      rw [t.nodes_inj hn t.root]
      have hroot : stage2TableAt vm.stage2 0 = vm.stage2.rootVa := by
        rw [h.rootVa, h.tableAt]
        omega
      rw [hroot]
      exact .root
    | append_singleton p k ih =>
      obtain ⟨q, hq, hp⟩ := t.exists_parent hn
      rw [List.length_append, List.length_singleton]
      apply TableAt.next (ih q hq) hp k.isLt
      rw [h.tableAt_add q k, h.descToTable_eq_some_iff k hq hp]
      exact ⟨n, hn, rfl⟩

theorem Holds.isTableEntry_iff (h : Holds P vm m t) {entry : ℕ} :
    IsTableEntry vm.stage2 m entry ↔
      ∃ n p k, t.nodes[n]? = some p ∧ p.length + 1 < 3 ∧ entry = poolSlot vm.id n k := by
  constructor
  · rintro ⟨level, table, k, ht, hl, hk, rfl⟩
    obtain ⟨n, p, hn, rfl, rfl⟩ := h.tableAt_iff.mp ht
    exact ⟨n, p, ⟨k, hk⟩, hn, hl, h.tableAt_add n ⟨k, hk⟩⟩
  · rintro ⟨n, p, k, hn, hp, rfl⟩
    exact ⟨p.length + 1, _, k, h.tableAt_iff.mpr ⟨n, p, hn, rfl, rfl⟩, hp, k.isLt,
      (h.tableAt_add n k).symm⟩

theorem Holds.tableDesc_eq (h : Holds P vm m t) {page : ℕ} (hp : page < t.nodes.length) :
    tableDesc (stage2TablePa vm.stage2 page) = link P vm.id page := by
  rw [h.tablePa (lt_of_lt_of_le hp h.repr.fits)]
  rfl

theorem Holds.linked (h : Holds P vm m t) {entry : ℕ} (he : IsTableEntry vm.stage2 m entry)
    (hv : m entry ≠ hvStage2DescInvalid) :
    ∃ page, 1 ≤ page ∧ page < vm.stage2.poolUsed ∧
      m entry = tableDesc (stage2TablePa vm.stage2 page) ∧
      stage2DescToTable vm.stage2 (m entry) = some (stage2TableAt vm.stage2 page) := by
  obtain ⟨n, p, k, hn, hp, rfl⟩ := h.isTableEntry_iff.mp he
  rcases h.repr.interior k hn hp with ⟨q, hq, hc⟩ | ⟨-, hc⟩
  · have hlt := t.lt_length hq
    have hpos : q ≠ 0 := by
      rintro rfl
      have := Option.some.inj (hq.symm.trans t.root)
      simp at this
    refine ⟨q, Nat.one_le_iff_ne_zero.mpr hpos, h.poolUsed ▸ hlt, ?_, ?_⟩
    · rw [h.tableDesc_eq hlt]
      exact hc
    · exact (h.descToTable_eq_some_iff k hn hp).mpr ⟨q, hq, rfl⟩
  · exact absurd hc hv

/-- A page in use, other than the root, is linked from its parent alone. -/
theorem Holds.once (h : Holds P vm m t) {page : ℕ} (hpos : 1 ≤ page)
    (hused : page < vm.stage2.poolUsed) :
    ∃! entry, IsTableEntry vm.stage2 m entry ∧
      stage2DescToTable vm.stage2 (m entry) = some (stage2TableAt vm.stage2 page) := by
  rw [h.poolUsed] at hused
  rcases List.eq_nil_or_concat' t.nodes[page] with hnil | ⟨p, k, hpk⟩
  · have := t.nodes_inj (List.getElem?_eq_some_iff.mpr ⟨hused, hnil⟩) t.root
    omega
  · have hn : t.nodes[page]? = some (p ++ [k]) := List.getElem?_eq_some_iff.mpr ⟨hused, hpk⟩
    obtain ⟨q, hq, hp⟩ := t.exists_parent hn
    refine ⟨poolSlot vm.id q k, ⟨h.isTableEntry_iff.mpr ⟨q, p, k, hq, hp, rfl⟩,
      (h.descToTable_eq_some_iff k hq hp).mpr ⟨page, hn, rfl⟩⟩, ?_⟩
    rintro entry ⟨he, hto⟩
    obtain ⟨q', p', k', hq', hp', rfl⟩ := h.isTableEntry_iff.mp he
    -- the page has the name that this table gives to its child, and one name only
    obtain ⟨page', hpage', heq⟩ := (h.descToTable_eq_some_iff k' hq' hp').mp hto
    rw [← h.tableAt_injective heq, hn, Option.some_inj] at hpage'
    obtain ⟨rfl, hk⟩ := List.append_inj' hpage' rfl
    rw [t.nodes_inj hq hq', (List.cons.inj hk).1]

theorem Holds.level (h : Holds P vm m t) {page : ℕ} (hused : page < vm.stage2.poolUsed) :
    ∃! level, TableAt vm.stage2 m level (stage2TableAt vm.stage2 page) := by
  rw [h.poolUsed] at hused
  have hn : t.nodes[page]? = some t.nodes[page] := List.getElem?_eq_some_iff.mpr ⟨hused, rfl⟩
  refine ⟨_, h.tableAt_iff.mpr ⟨page, _, hn, rfl, rfl⟩, ?_⟩
  intro level hr
  obtain ⟨n, p, hn', rfl, heq⟩ := h.tableAt_iff.mp hr
  rw [← h.tableAt_injective heq, hn] at hn'
  rw [Option.some.inj hn']

end Reached

section Blocks

/-- Every table that is held serves a page of the 4 GiB. -/
def Named (a : AddressSpace) : Prop := ∀ name ∈ a.pages.held, ∃ v < 2 ^ 20, name ∈ tablesOf v

theorem Named.insertAll (h : Named a) {ps : List (ℕ × Mapping)}
    (hps : ∀ v ∈ ps.map Prod.fst, v < 2 ^ 20) :
    Named { a with pages := (a.pages.insertAll tableBudget tablesOf ps).2 } := by
  intro name hname
  rcases BudgetedMap.mem_insertAll_held tableBudget tablesOf hname with hold | ⟨v, hv, hneed⟩
  · exact h name hold
  · exact ⟨v, hps v hv, hneed⟩

theorem Named.mapRegion (h : Named a) (hr : RegionTable a.regions) (ipa pa size : ℕ)
    (attrs : BitVec 64) : Named (a.mapRegion ipa pa size attrs).2 := by
  unfold AddressSpace.mapRegion
  split_ifs with h1 h2
  · exact h
  · apply h.insertAll
    intro v hv
    obtain ⟨⟨v, e⟩, hmem, rfl⟩ := List.mem_map.mp hv
    simp only [BadRange, not_or, not_not] at h1
    have hfits := (backed_fits hr (h2.page h1.1 h1.2.1 hmem)).1
    dsimp only at hfits ⊢
    omega
  · exact h

/-- No call leaves a table behind that serves no page. -/
theorem Named.step (h : Named a) (hs : a.Sound) (c : VmCall) : Named (a.step c).2 := by
  cases c with
  | addRegion r =>
    simp only [AddressSpace.step, AddressSpace.addRegion]
    split_ifs <;> exact h
  | mapRegion ipa pa size attrs => exact h.mapRegion hs.table _ _ _ _
  | unmapPage ipa =>
    simp only [AddressSpace.step, AddressSpace.unmapPage]
    split_ifs <;> exact h
  | buildStage2 =>
    rw [AddressSpace.step, build_eq hs.table fun r hr => hr]
    exact h.insertAll fun v hv => ramPages_lt hs.table hv

theorem pageIx_l2Name (v : ℕ) : [pageIx v 18] = l2Name (v / 2 ^ 18) :=
  (List.cons.inj (tablesOf_eq v)).1

theorem pageIx_l3Name (v : ℕ) : [pageIx v 18, pageIx v 9] = l3Name (v / 2 ^ 9) :=
  (List.cons.inj (List.cons.inj (tablesOf_eq v)).2).1

/-- A property of addresses that depends on their block, as a property of blocks. -/
theorem exists_block_iff {T : HvIpa → Prop} {Q : ℕ → Prop} {s : ℕ} (hs : s ≤ 32)
    (h : ∀ x, T x ↔ Q (x.toNat / 2 ^ s)) {b : ℕ} :
    (∃ x : HvIpa, x.toNat < 2 ^ 32 ∧ x.toNat / 2 ^ s = b ∧ T x) ↔ b < 2 ^ (32 - s) ∧ Q b := by
  have hsplit : 2 ^ s * 2 ^ (32 - s) = 2 ^ 32 := pow_mul_pow_sub 2 hs
  constructor
  · rintro ⟨x, hx, rfl, hT⟩
    exact ⟨Nat.div_lt_of_lt_mul (hsplit ▸ hx), (h x).mp hT⟩
  · rintro ⟨hb, hQ⟩
    have hlt : b * 2 ^ s < 2 ^ 32 := by
      rw [← hsplit, Nat.mul_comm (2 ^ s)]
      exact Nat.mul_lt_mul_of_pos_right hb (Nat.two_pow_pos s)
    have hx : (BitVec.ofNat 64 (b * 2 ^ s)).toNat = b * 2 ^ s := by
      rw [BitVec.toNat_ofNat, Nat.mod_eq_of_lt (hlt.trans (by decide))]
    have hdiv : (BitVec.ofNat 64 (b * 2 ^ s)).toNat / 2 ^ s = b := by
      rw [hx, Nat.mul_div_cancel b (Nat.two_pow_pos s)]
    exact ⟨_, hx.trans_lt hlt, hdiv, (h _).mpr (hdiv.symm ▸ hQ)⟩

theorem Stores.mem_l2Blocks_iff (h : Stores P vm m pages t) {b : ℕ} :
    b ∈ l2Blocks vm.stage2 m ↔ b < 2 ^ 2 ∧ l2Name b ∈ pages.held := by
  apply exists_block_iff (s := 30) (by decide)
  intro x
  have hix : vm.stage2.rootVa + stage2PageIndex x hvStage2L1Shift =
      poolSlot vm.id 0 (pageIx (x.toNat / 4096) 18) := by
    have : stage2PageIndex x hvStage2L1Shift = (pageIx (x.toNat / 4096) 18).val :=
      congrArg Fin.val (pathIndex_eq x 18)
    rw [h.holds.rootVa, this, poolSlot]
    omega
  have hblock : x.toNat / 2 ^ 30 = x.toNat / 4096 / 2 ^ 18 := by omega
  have hname : l2Name (x.toNat / 2 ^ 30) = [] ++ [pageIx (x.toNat / 4096) 18] := by
    rw [List.nil_append, pageIx_l2Name, hblock]
  rw [hix, hname, ← h.mem_nodes_iff, Option.ne_none_iff_exists']
  simp only [h.holds.descToTable_eq_some_iff _ t.root (by decide)]
  constructor
  · rintro ⟨_, q, hq, -⟩
    exact t.mem_nodes hq
  · intro hmem
    obtain ⟨q, hq⟩ := List.getElem?_of_mem hmem
    exact ⟨_, q, hq, rfl⟩

theorem Stores.mem_l3Blocks_iff (h : Stores P vm m pages t) {b : ℕ} :
    b ∈ l3Blocks vm.stage2 m ↔ b < 2 ^ 11 ∧ l3Name b ∈ pages.held := by
  apply exists_block_iff (s := 21) (by decide)
  intro x
  have hblock : x.toNat / 2 ^ 21 = x.toNat / 4096 / 2 ^ 9 := by omega
  have hname : l3Name (x.toNat / 2 ^ 21) =
      [pageIx (x.toNat / 4096) 18] ++ [pageIx (x.toNat / 4096) 9] := by
    rw [List.cons_append, List.nil_append, pageIx_l3Name, hblock]
  rw [hname, ← h.mem_nodes_iff]
  rcases h.walk x with ⟨n, he, hn⟩ | ⟨he, hn⟩
  · rw [he]
    exact iff_of_true nofun (t.mem_nodes hn)
  · rw [he]
    exact iff_of_false (fun hne => hne rfl) hn

/-- Each table that is held is the one table of one block. -/
theorem Stores.held_length_eq (h : Stores P vm m pages t) (hn : Named ⟨[], pages⟩) :
    pages.held.length = (l2Blocks vm.stage2 m).ncard + (l3Blocks vm.stage2 m).ncard := by
  have hnodup : pages.held.Nodup := by
    have := t.nodup
    rw [h.nodes, List.nodup_cons] at this
    exact this.2
  have hset : (pages.held.toFinset : Set (List (Fin 512))) =
      l2Name '' l2Blocks vm.stage2 m ∪ l3Name '' l3Blocks vm.stage2 m := by
    ext name
    rw [List.coe_toFinset, Set.mem_union, Set.mem_image, Set.mem_image]
    simp only [h.mem_l2Blocks_iff, h.mem_l3Blocks_iff]
    constructor
    · intro hname
      obtain ⟨v, hv, hneed⟩ := hn name hname
      simp only [tablesOf_eq, List.mem_cons, List.not_mem_nil, or_false] at hneed
      rcases hneed with rfl | rfl
      · exact .inl ⟨_, ⟨by omega, hname⟩, rfl⟩
      · exact .inr ⟨_, ⟨by omega, hname⟩, rfl⟩
    · rintro (⟨b, ⟨-, hb⟩, rfl⟩ | ⟨b, ⟨-, hb⟩, rfl⟩) <;> exact hb
  have hdisj : Disjoint (l2Name '' l2Blocks vm.stage2 m) (l3Name '' l3Blocks vm.stage2 m) := by
    rw [Set.disjoint_left]
    rintro _ ⟨b, -, rfl⟩ ⟨c, -, hc⟩
    simp [l2Name, l3Name] at hc
  have hfin : (l2Name '' l2Blocks vm.stage2 m ∪ l3Name '' l3Blocks vm.stage2 m).Finite :=
    hset ▸ Finset.finite_toSet _
  have hinj2 : Set.InjOn l2Name (l2Blocks vm.stage2 m) :=
    l2Name_injOn fun b hb => (h.mem_l2Blocks_iff.mp hb).1.trans (by decide)
  have hinj3 : Set.InjOn l3Name (l3Blocks vm.stage2 m) :=
    l3Name_injOn fun b hb => (h.mem_l3Blocks_iff.mp hb).1.trans (by decide)
  rw [← List.toFinset_card_of_nodup hnodup, ← Set.ncard_coe_finset, hset,
    Set.ncard_union_eq hdisj (hfin.subset Set.subset_union_left)
      (hfin.subset Set.subset_union_right),
    hinj2.ncard_image, hinj3.ncard_image]

end Blocks

theorem Stores.poolUsed_eq (h : Stores P vm m pages t) :
    vm.stage2.poolUsed = pages.held.length + 1 := by
  rw [h.holds.poolUsed, h.nodes, List.length_cons]

theorem Refines.tablesShape (h : Refines P vm m a) (hn : Named a) : TablesShape vm.stage2 m := by
  obtain ⟨-, t, ht⟩ := h
  have hh := ht.holds
  refine ⟨⟨?_, ?_⟩, ?_, fun entry => hh.linked, fun page => hh.once, fun page => hh.level, ?_, ?_⟩
  · rw [ht.poolUsed_eq]
    omega
  · rw [hh.poolUsed, hh.poolPages]
    exact hh.repr.fits
  · rw [hh.rootVa, hh.tableAt]
    omega
  · intro page hpage hlt k hk
    rw [hh.poolUsed] at hpage
    rw [hh.poolPages] at hlt
    rw [hh.tableAt_add page ⟨k, hk⟩]
    exact hh.repr.unused page ⟨k, hk⟩ hpage hlt
  · rw [ht.poolUsed_eq, Nat.add_sub_cancel]
    exact ht.held_length_eq hn

section Consumption

/-- The addresses that a call may map. -/
def callAddresses (vm : HvVm) : VmCall → Set ℕ
  | .mapRegion ipa _ size _ => Set.Ico ipa.toNat (ipa.toNat + size.toNat)
  | .buildStage2 => {x | ∃ r ∈ vm.regions, r.type = .ram ∧ x ∈ r.span}
  | .addRegion _ | .unmapPage _ => ∅

/-- Both tables of a page in a block that has an L3 table are there. -/
theorem Stores.tables_of_l3Blocks (h : Stores P vm m pages t) {v : ℕ}
    (hb : v * 4096 / 2 ^ 21 ∈ l3Blocks vm.stage2 m) : ∀ r ∈ tablesOf v, r ∈ pages.held := by
  have hblock : v * 4096 / 2 ^ 21 = v / 2 ^ 9 := by omega
  have hl3 : [pageIx v 18] ++ [pageIx v 9] ∈ t.nodes := by
    rw [h.mem_nodes_iff, List.cons_append, List.nil_append, pageIx_l3Name, ← hblock]
    exact (h.mem_l3Blocks_iff.mp hb).2
  exact h.tables_of_node hl3

/-- A call that maps nothing outside the blocks with tables holds no new table afterwards. -/
theorem Stores.step_held (h : Stores P vm m a.pages t) (hr : vm.regions = a.regions)
    (hs : a.Sound) {c : VmCall}
    (hc : ∀ x ∈ callAddresses vm c, x / 2 ^ 21 ∈ l3Blocks vm.stage2 m) :
    (a.step c).2.pages.held = a.pages.held := by
  cases c with
  | addRegion r =>
    simp only [AddressSpace.step, AddressSpace.addRegion]
    split_ifs <;> rfl
  | unmapPage ipa =>
    simp only [AddressSpace.step, AddressSpace.unmapPage]
    split_ifs <;> rfl
  | mapRegion ipa pa size attrs =>
    simp only [AddressSpace.step, AddressSpace.mapRegion]
    split_ifs with h1 h2
    · rfl
    · apply BudgetedMap.insertAll_held_eq
      intro v hv
      apply h.tables_of_l3Blocks
      apply hc
      simp only [BadRange, not_or, not_not] at h1
      obtain ⟨⟨v, e⟩, hmem, rfl⟩ := List.mem_map.mp hv
      obtain ⟨k, hk, he⟩ := List.mem_map.mp hmem
      rw [List.mem_range] at hk
      obtain ⟨rfl, -⟩ := Prod.mk.inj he
      rw [callAddresses, Set.mem_Ico]
      dsimp only
      omega
    · rfl
  | buildStage2 =>
    rw [AddressSpace.step, build_eq hs.table fun r hr => hr]
    apply BudgetedMap.insertAll_held_eq
    intro v hv
    apply h.tables_of_l3Blocks
    apply hc
    obtain ⟨r, hmem, hram, hspan⟩ := (mem_ramPages_keys hs.table).mp hv
    exact ⟨r, hr ▸ hmem, hram, hspan⟩

theorem Refines.call_poolUsed (h : Refines P vm m a) (hs : a.Sound) {c : VmCall}
    (hc : ∀ x ∈ callAddresses vm c, x / 2 ^ 21 ∈ l3Blocks vm.stage2 m) :
    (vmCall vm m c).2.1.stage2.poolUsed = vm.stage2.poolUsed := by
  obtain ⟨-, t', ht'⟩ := (h.call hs c).refines
  obtain ⟨hreg, t, ht⟩ := h
  rw [ht'.poolUsed_eq, ht.poolUsed_eq, ht.step_held hreg hs hc]

end Consumption

/-- The tables in use form a tree under the root, after any calls, and a call takes no page from the
pool if all its addresses have their tables already. -/
theorem stage2_tables_form_tree (P : Platform) (vm : HvVm) (m : TablePools) (id : ℕ)
    (vmid : BitVec 32) (calls : List VmCall) (hinit : (hvVmInit P vm m id vmid).1 = hvVmOk) :
    let run := vmRun (hvVmInit P vm m id vmid).2 calls
    TablesShape run.2.1.stage2 run.2.2 ∧
      ∀ c, (∀ x ∈ callAddresses run.2.1 c, x / 2 ^ 21 ∈ l3Blocks run.2.1.stage2 run.2.2) →
        (vmCall run.2.1 run.2.2 c).2.1.stage2.poolUsed = run.2.1.stage2.poolUsed := by
  intro run
  obtain ⟨-, hrun, hsound⟩ := vmRun_refines (hvVmInit_refines hinit) Sound.empty calls
  have hnamed := exec_invariant (P := fun a : AddressSpace => Named a ∧ a.Sound)
    (fun a c h => ⟨h.1.step h.2 c, h.2.step c⟩) calls
    ⟨fun name hname => absurd hname List.not_mem_nil, Sound.empty⟩
  exact ⟨hrun.tablesShape hnamed.1, fun c hc => hrun.call_poolUsed hsound hc⟩


/-- One page is built, and mapped again: three tables are in use. -/
theorem stage2_tables_form_tree_one_page :
    let ram : HvVmRegion :=
      { ipaBase := 0x400000, size := 0x1000, paBase := 0x800000,
        attrs := hvStage2PageNormalNcRw, type := .ram, device := .none }
    let calls := [.addRegion ram, .buildStage2]
    let run := vmRun (hvVmInit .twoSlots ⟨0, 0, [], ⟨0, 0, 0, 0, 0, 0⟩⟩ (fun _ => 0) 1 7).2 calls
    (l2Blocks run.2.1.stage2 run.2.2).ncard + (l3Blocks run.2.1.stage2 run.2.2).ncard = 2 ∧
      (vmCall run.2.1 run.2.2 (.mapRegion 0x400000 0x800000 0x1000 0)).2.1.stage2.poolUsed = 3 := by
  intro ram calls run
  have hused : run.2.1.stage2.poolUsed = 3 := by decide +kernel
  have hwalk : (stage2WalkL3 run.2.1.stage2 run.2.2 0x400000 false).1 ≠ none := by decide +kernel
  obtain ⟨hshape, hkeeps⟩ := stage2_tables_form_tree .twoSlots
    ⟨0, 0, [], ⟨0, 0, 0, 0, 0, 0⟩⟩ (fun _ => 0) 1 7 calls rfl
  have hblocks : run.2.1.stage2.poolUsed - 1 = _ := hshape.blocks
  refine ⟨by rw [← hblocks, hused], (hkeeps _ ?_).trans hused⟩
  rintro x ⟨hlow, hhigh⟩
  change 0x400000 ≤ x at hlow
  change x < 0x401000 at hhigh
  exact ⟨0x400000, by decide, by change 2 = _; omega, hwalk⟩

end PiPervisor.Stage2
