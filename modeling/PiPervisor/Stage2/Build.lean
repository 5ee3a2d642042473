import PiPervisor.Stage2.Lookup
import Mathlib.Data.Set.Card

/-! # Building the tables of a VM

The pages of all RAM regions are inserted in one go. The regions are disjoint,
so the only thing that can be missing is a table: a build needs one for each
1 GiB block and one for each 2 MiB block that holds a page of a RAM region.
-/
namespace PiPervisor.Stage2
open Library Library.BitField AddressSpace

/-- The blocks of this size that contain a page of a RAM region. -/
def ramBlocks (rs : List HvVmRegion) (size : ℕ) : Set ℕ :=
  {b | ∃ r ∈ rs, r.type = .ram ∧ ∃ v, v * 4096 ∈ r.span ∧ v * 4096 / size = b}

/-- The mapping that a RAM region asks for at one of its pages. -/
def HvVmRegion.mapping (r : HvVmRegion) (v : ℕ) : Mapping :=
  ⟨(r.paBase.toNat + (v * 4096 - r.ipaBase.toNat)) / 4096, r.attrs⟩

/-- The pages of the RAM regions in the order in which a build maps them. -/
def ramPages (rs : List HvVmRegion) : List (ℕ × Mapping) :=
  rs.flatMap fun r =>
    if r.type = .ram then rangePages r.ipaBase.toNat r.paBase.toNat r.size.toNat r.attrs else []

variable {P : Platform} {vm : HvVm} {m : TablePools} {a : AddressSpace} {rs : List HvVmRegion}
  {r : HvVmRegion} {v : ℕ} {e : Mapping}

theorem mem_rangePages (hr : r.Valid) (hram : r.type = .ram) :
    (v, e) ∈ rangePages r.ipaBase.toNat r.paBase.toNat r.size.toNat r.attrs ↔
      v * 4096 ∈ r.span ∧ e = r.mapping v := by
  have h1 := hr.ipa_aligned
  have h2 := hr.size_aligned
  have h3 := hr.pa_aligned hram
  simp only [rangePages, List.mem_map, List.mem_range, Prod.mk.injEq, HvVmRegion.span, Set.mem_Ico,
    HvVmRegion.mapping]
  constructor
  · rintro ⟨k, hk, rfl, rfl⟩
    refine ⟨by omega, ?_⟩
    congr 1
    omega
  · rintro ⟨hv, rfl⟩
    refine ⟨v - r.ipaBase.toNat / 4096, by omega, by omega, ?_⟩
    congr 1
    omega

theorem mem_ramPages (h : RegionTable rs) :
    (v, e) ∈ ramPages rs ↔
      ∃ r ∈ rs, r.type = .ram ∧ v * 4096 ∈ r.span ∧ e = r.mapping v := by
  rw [ramPages, List.mem_flatMap]
  refine exists_congr fun r => and_congr_right fun hr => ?_
  by_cases hram : r.type = .ram
  · rw [if_pos hram, mem_rangePages (h.valid r hr) hram]
    simp only [hram, true_and]
  · simp [hram]

theorem mem_ramPages_keys (h : RegionTable rs) :
    v ∈ (ramPages rs).map Prod.fst ↔ ∃ r ∈ rs, r.type = .ram ∧ v * 4096 ∈ r.span := by
  rw [List.mem_map]
  constructor
  · rintro ⟨⟨w, e⟩, hp, rfl⟩
    obtain ⟨r, hr, hram, hx, -⟩ := (mem_ramPages h).mp hp
    exact ⟨r, hr, hram, hx⟩
  · rintro ⟨r, hr, hram, hx⟩
    exact ⟨(v, r.mapping v), (mem_ramPages h).mpr ⟨r, hr, hram, hx, rfl⟩, rfl⟩

/-- Regions of a table share no page. -/
theorem ramPages_nodup (h : RegionTable rs) : ((ramPages rs).map Prod.fst).Nodup := by
  rw [ramPages, List.map_flatMap, List.nodup_flatMap]
  constructor
  · intro r _
    split
    · exact rangePages_nodup _ _ _ _
    · exact List.nodup_nil
  · refine List.Pairwise.imp_of_mem ?_ h.disjoint
    intro b c hb hc hd v hvb hvc
    have hspan {r : HvVmRegion} (hr : r ∈ rs) (hv : v ∈ List.map Prod.fst (if r.type = .ram then
        rangePages r.ipaBase.toNat r.paBase.toNat r.size.toNat r.attrs else [])) :
        v * 4096 ∈ r.span := by
      split at hv
      · rename_i hram
        obtain ⟨⟨w, e⟩, hp, rfl⟩ := List.mem_map.mp hv
        exact ((mem_rangePages (h.valid r hr) hram).mp hp).1
      · cases hv
    exact Set.disjoint_left.mp hd (hspan hb hvb) (hspan hc hvc)

/-- Mapping a stored RAM region passes every check. -/
theorem AddressSpace.mapRegion_stored (h : RegionTable a.regions) (hr : r ∈ a.regions)
    (hram : r.type = .ram) :
    a.mapRegion r.ipaBase.toNat r.paBase.toNat r.size.toNat r.attrs =
      a.mapRange r.ipaBase.toNat r.paBase.toNat r.size.toNat r.attrs := by
  have hv := h.valid r hr
  have hbad : ¬ BadRange r.ipaBase.toNat r.paBase.toNat r.size.toNat := by
    have := hv.ipa_aligned
    have := hv.size_aligned
    have := hv.size_pos
    have := hv.ipa_fits
    have := hv.pa_aligned hram
    have := hv.pa_fits hram
    unfold BadRange
    omega
  have hback : Backed a.regions r.ipaBase.toNat r.paBase.toNat r.size.toNat :=
    ⟨r, hr, hram, le_rfl, le_rfl, by omega⟩
  rw [AddressSpace.mapRegion, if_neg hbad, if_pos hback]

/-- A build inserts the pages of all its RAM regions. -/
theorem AddressSpace.build_eq (h : RegionTable a.regions) (hsub : ∀ r ∈ rs, r ∈ a.regions) :
    a.build rs =
      let ins := a.pages.insertAll tableBudget tablesOf (ramPages rs)
      (outcomeCode ins.1, { a with pages := ins.2 }) := by
  induction rs generalizing a with
  | nil => rfl
  | cons r rs ih =>
    have hrest : ∀ r ∈ rs, r ∈ a.regions := fun r hr => hsub r (List.mem_cons_of_mem _ hr)
    rw [AddressSpace.build]
    by_cases hram : r.type = .ram
    · have hpages : ramPages (r :: rs) =
          rangePages r.ipaBase.toNat r.paBase.toNat r.size.toNat r.attrs ++ ramPages rs := by
        rw [ramPages, List.flatMap_cons, if_pos hram, ramPages]
      rw [if_neg (not_not.mpr hram), mapRegion_stored h (hsub r List.mem_cons_self) hram, mapRange,
        hpages, BudgetedMap.insertAll_append]
      have hok := outcomeCode_eq_ok_iff (a.pages.insertAll tableBudget tablesOf
        (rangePages r.ipaBase.toNat r.paBase.toNat r.size.toNat r.attrs)).1
      by_cases hins : (a.pages.insertAll tableBudget tablesOf
          (rangePages r.ipaBase.toNat r.paBase.toNat r.size.toNat r.attrs)).1 = .inserted
      · rw [if_pos hins]
        exact (if_neg (not_not.mpr (hok.mpr hins))).trans (ih h hrest)
      · rw [if_neg hins]
        exact if_pos (mt hok.mp hins)
    · have hpages : ramPages (r :: rs) = ramPages rs := by
        rw [ramPages, List.flatMap_cons, if_neg hram, List.nil_append, ramPages]
      rw [if_pos hram, hpages]
      exact ih h hrest

/-- The names of the tables that serve a 1 GiB block and a 2 MiB block. -/
def l2Name (b : ℕ) : List (Fin 512) := [Fin.ofNat 512 b]

def l3Name (b : ℕ) : List (Fin 512) := [Fin.ofNat 512 (b / 512), Fin.ofNat 512 b]

theorem tablesOf_eq (v : ℕ) : tablesOf v = [l2Name (v / 2 ^ 18), l3Name (v / 2 ^ 9)] := by
  have h : v / 2 ^ 9 / 512 = v / 2 ^ 18 := by omega
  simp only [tablesOf, l2Name, l3Name, pageIx, h, Fin.ofNat]

theorem l2Name_injOn {s : Set ℕ} (hs : ∀ b ∈ s, b < 512) : Set.InjOn l2Name s := by
  intro b hb c hc h
  have := hs b hb
  have := hs c hc
  simp only [l2Name, List.cons.injEq, and_true, Fin.ofNat, Fin.mk.injEq] at h
  omega

theorem l3Name_injOn {s : Set ℕ} (hs : ∀ b ∈ s, b < 512 * 512) : Set.InjOn l3Name s := by
  intro b hb c hc h
  have := hs b hb
  have := hs c hc
  simp only [l3Name, List.cons.injEq, and_true, Fin.ofNat, Fin.mk.injEq] at h
  omega

/-- Pages need as many tables as they touch 1 GiB blocks and 2 MiB blocks. -/
theorem length_demand_tablesOf {keys : List ℕ} (hlt : ∀ v ∈ keys, v < 2 ^ 20) :
    (BudgetedMap.demand tablesOf [] keys).length =
      (keys.toFinset.image (· / 2 ^ 18)).card + (keys.toFinset.image (· / 2 ^ 9)).card := by
  have hnodup : (BudgetedMap.demand tablesOf [] keys).Nodup :=
    BudgetedMap.nodup_demand tablesOf List.nodup_nil keys
  have hset : (BudgetedMap.demand tablesOf [] keys).toFinset =
      (keys.toFinset.image (· / 2 ^ 18)).image l2Name ∪
        (keys.toFinset.image (· / 2 ^ 9)).image l3Name := by
    ext t
    simp only [List.mem_toFinset, BudgetedMap.mem_demand, List.not_mem_nil, false_or, tablesOf_eq,
      List.mem_cons, or_false, Finset.mem_union, Finset.mem_image, exists_exists_and_eq_and,
      ← exists_or, ← and_or_left, eq_comm (a := t)]
  have hdisj : Disjoint ((keys.toFinset.image (· / 2 ^ 18)).image l2Name)
      ((keys.toFinset.image (· / 2 ^ 9)).image l3Name) := by
    rw [Finset.disjoint_left]
    intro t h2 h3
    obtain ⟨b, -, rfl⟩ := Finset.mem_image.mp h2
    obtain ⟨c, -, hc⟩ := Finset.mem_image.mp h3
    simp [l2Name, l3Name] at hc
  rw [← List.toFinset_card_of_nodup hnodup, hset, Finset.card_union_of_disjoint hdisj,
    Finset.card_image_of_injOn (l2Name_injOn ?_), Finset.card_image_of_injOn (l3Name_injOn ?_)]
  all_goals
    intro b hb
    obtain ⟨v, hv, rfl⟩ := Finset.mem_image.mp (Finset.mem_coe.mp hb)
    have := hlt v (List.mem_toFinset.mp hv)
    omega

theorem ramBlocks_eq (h : RegionTable rs) {size k : ℕ} (hk : size = 4096 * k) :
    ramBlocks rs size = (((ramPages rs).map Prod.fst).toFinset.image (· / k) : Finset ℕ) := by
  ext b
  have hdiv (v : ℕ) : v * 4096 / size = v / k := by
    rw [hk, ← Nat.div_div_eq_div_mul, Nat.mul_div_cancel _ (by decide)]
  simp only [ramBlocks, Set.mem_ofPred_eq, hdiv, Finset.coe_image, Set.mem_image, Finset.mem_coe,
    List.mem_toFinset, mem_ramPages_keys h]
  constructor
  · rintro ⟨r, hr, hram, v, hv, hb⟩
    exact ⟨v, ⟨r, hr, hram, hv⟩, hb⟩
  · rintro ⟨v, ⟨r, hr, hram, hv⟩, hb⟩
    exact ⟨r, hr, hram, v, hv, hb⟩

theorem ramPages_lt (h : RegionTable rs) {v : ℕ} (hv : v ∈ (ramPages rs).map Prod.fst) :
    v < 2 ^ 20 := by
  obtain ⟨r, hr, -, hx⟩ := (mem_ramPages_keys h).mp hv
  have := (h.valid r hr).ipa_fits
  have := hx.2
  omega

/-- The number of tables that mapping all RAM regions takes. -/
theorem length_demand_ramPages (h : RegionTable rs) :
    (BudgetedMap.demand tablesOf [] ((ramPages rs).map Prod.fst)).length =
      (ramBlocks rs (2 ^ 30)).ncard + (ramBlocks rs (2 ^ 21)).ncard := by
  have h1 := ramBlocks_eq h (show 2 ^ 30 = 4096 * 2 ^ 18 by decide)
  have h2 := ramBlocks_eq h (show 2 ^ 21 = 4096 * 2 ^ 9 by decide)
  rw [length_demand_tablesOf fun v hv => ramPages_lt h hv, h1, h2, Set.ncard_coe_finset,
    Set.ncard_coe_finset]

/-- A build on an empty page map fails only if the tables run out, and else maps every RAM page. -/
theorem AddressSpace.build_empty (h : RegionTable rs) :
    let built := AddressSpace.build ⟨rs, BudgetedMap.empty⟩ rs
    (built.1 = if (ramBlocks rs (2 ^ 30)).ncard + (ramBlocks rs (2 ^ 21)).ncard ≤ tableBudget
      then hvVmOk else hvStage2ErrNoTables) ∧
    (built.1 = hvVmOk → ∀ v e, built.2.pages.entry v = some e ↔
      ∃ r ∈ rs, r.type = .ram ∧ v * 4096 ∈ r.span ∧ e = r.mapping v) := by
  intro built
  have hb : built = _ := build_eq (a := ⟨rs, BudgetedMap.empty⟩) h fun r hr => hr
  have hcap : (BudgetedMap.empty : PageMap).held.length ≤ tableBudget := Nat.zero_le _
  have hnodup := ramPages_nodup h
  have hiff := BudgetedMap.insertAll_inserted_iff tableBudget tablesOf (ramPages rs) _ hcap
  have hpresent := BudgetedMap.insertAll_ne_present tableBudget tablesOf (ramPages rs)
    BudgetedMap.empty hnodup fun p _ => rfl
  have hdemand : (BudgetedMap.demand tablesOf (BudgetedMap.empty : PageMap).held
      ((ramPages rs).map Prod.fst)).length = _ := length_demand_ramPages h
  rw [hdemand] at hiff
  have hfits : (BudgetedMap.insertAll tableBudget tablesOf BudgetedMap.empty (ramPages rs)).1 =
      .inserted ↔ (ramBlocks rs (2 ^ 30)).ncard + (ramBlocks rs (2 ^ 21)).ncard ≤ tableBudget :=
    hiff.trans ⟨fun hh => hh.2.2, fun hh => ⟨hnodup, fun p _ => rfl, hh⟩⟩
  rw [hb]
  constructor
  · change outcomeCode _ = _
    by_cases hle : (ramBlocks rs (2 ^ 30)).ncard + (ramBlocks rs (2 ^ 21)).ncard ≤ tableBudget
    · rw [if_pos hle, hfits.mpr hle]
      rfl
    · rw [if_neg hle]
      cases ho : (BudgetedMap.insertAll tableBudget tablesOf BudgetedMap.empty (ramPages rs)).1 with
      | inserted => exact absurd (hfits.mp ho) hle
      | present => exact absurd ho hpresent
      | exhausted => rfl
  · intro hok v e
    have hins := (outcomeCode_eq_ok_iff _).mp hok
    have hentry := BudgetedMap.insertAll_entry_of_inserted tableBudget tablesOf (ramPages rs) _
      hcap hins
    rw [← mem_ramPages h]
    constructor
    · intro he
      rcases BudgetedMap.insertAll_entry tableBudget tablesOf (ramPages rs) BudgetedMap.empty v
        with hsame | ⟨e', hmem, hstored⟩
      · cases hsame.symm.trans he
      · obtain rfl := Option.some.inj (hstored.symm.trans he)
        exact hmem
    · exact fun hmem => hentry.1 (v, e) hmem

theorem AddressSpace.translate_ok_iff {x q : ℕ} (hx : x < 2 ^ 32) :
    a.translate x = .ok q ↔
      ∃ e, a.pages.entry (x / 4096) = some e ∧ q = e.page * 4096 + x % 4096 := by
  rw [AddressSpace.translate, if_neg (Nat.not_le_of_lt hx)]
  cases a.pages.entry (x / 4096) with
  | none => simp
  | some e => simp [eq_comm]

theorem Refines.translate_ok_iff (h : Refines P vm m a) (hs : a.Sound) {x : HvIpa} {p : HvPa} :
    hvStage2Translate vm m x = .ok p ↔ a.translate x.toNat = .ok p.toNat := by
  rw [← h.translate hs]
  cases hvStage2Translate vm m x with
  | error e => simp [Except.map]
  | ok q => simp [Except.map, BitVec.toNat_inj]

/-- The leaf of a page: its valid descriptors are those of the mapped pages. -/
theorem Refines.leaf_valid (h : Refines P vm m a) {x : HvIpa} (hx : x.toNat < 2 ^ 32) {entry : ℕ}
    (hw : (stage2WalkL3 vm.stage2 m x false).1 = some entry)
    (hv : m entry &&& hvStage2DescPage = hvStage2DescPage) :
    ∃ e, a.pages.entry (x.toNat / 4096) = some e ∧ m entry = leafDesc (some e) := by
  obtain ⟨-, t, ht⟩ := h
  rcases ht.walk x with ⟨n, hwalk, hn⟩ | ⟨hwalk, -⟩
  · have hcell := ht.leafCell (by omega : x.toNat / 4096 < 2 ^ 20) hn
    rw [hwalk] at hw
    obtain rfl := Option.some.inj hw
    rw [hcell] at hv ⊢
    cases he : a.pages.entry (x.toNat / 4096) with
    | none =>
      rw [he] at hv
      exact absurd hv (by decide)
    | some e => exact ⟨e, rfl, rfl⟩
  · rw [hwalk] at hw
    cases hw

theorem pageDesc_outside (pa : HvPa) (attrs : BitVec 64) :
    pageDesc pa attrs &&& ~~~hvStage2DescAddrMask =
      attrs &&& ~~~hvStage2DescAddrMask ||| hvStage2DescPage :=
  and_not_field_pack hvStage2DescAddrMask pa attrs hvStage2DescPage (by decide)

theorem HvVmRegion.Valid.translate_mapping (hr : r.Valid) (hram : r.type = .ram) {x : ℕ}
    (hx : x / 4096 * 4096 ∈ r.span) :
    (r.mapping (x / 4096)).page * 4096 + x % 4096 = r.paBase.toNat + (x - r.ipaBase.toNat) := by
  have h1 := hr.ipa_aligned
  have h2 := hr.pa_aligned hram
  have h3 := hx.1
  change (r.paBase.toNat + (x / 4096 * 4096 - r.ipaBase.toNat)) / 4096 * 4096 + _ = _
  omega

/-- An address lies in a region exactly if its page does. -/
theorem HvVmRegion.Valid.page_mem_span (hr : r.Valid) {x : ℕ} :
    x / 4096 * 4096 ∈ r.span ↔ x ∈ r.span := by
  have h1 := hr.ipa_aligned
  have h2 := hr.size_aligned
  simp only [HvVmRegion.span, Set.mem_Ico]
  omega

/-- Building the tables of a region table succeeds exactly if the pool has a page for each block
that holds RAM, and then RAM and nothing else is mapped, with the attributes of its region. -/
theorem build_outcome (P : Platform) (vm : HvVm) (m : TablePools) (id : ℕ) (vmid : BitVec 32)
    (rs : List HvVmRegion) (hinit : (hvVmInit P vm m id vmid).1 = hvVmOk)
    (hok : ∀ c ∈ (addRegions (hvVmInit P vm m id vmid).2.1 rs).1, c = hvVmOk) :
    let fresh := (hvVmInit P vm m id vmid).2
    let built := hvVmBuildStage2 (addRegions fresh.1 rs).2 fresh.2
    let n1 := (ramBlocks rs (2 ^ 30)).ncard
    let n2 := (ramBlocks rs (2 ^ 21)).ncard
    (built.1 = if n1 + n2 ≤ hvStage2MaxTablePages - 1 then hvVmOk else hvStage2ErrNoTables) ∧
      (built.1 = hvVmOk → ∀ x : HvIpa, x.toNat < 2 ^ 32 →
        (∀ p, hvStage2Translate built.2.1 built.2.2 x = .ok p ↔ ∃ r ∈ rs, r.type = .ram ∧
          x.toNat ∈ r.span ∧ p.toNat = r.paBase.toNat + (x.toNat - r.ipaBase.toNat)) ∧
        ∀ entry, (stage2WalkL3 built.2.1.stage2 built.2.2 x false).1 = some entry →
          built.2.2 entry &&& hvStage2DescPage = hvStage2DescPage →
            ∃ r ∈ rs, r.type = .ram ∧ x.toNat ∈ r.span ∧
              built.2.2 entry &&& ~~~hvStage2DescAddrMask =
                r.attrs &&& ~~~hvStage2DescAddrMask ||| hvStage2DescPage) := by
  intro fresh built n1 n2
  have href := hvVmInit_refines hinit
  have hempty : fresh.1.regions = [] := hvVmInit_regions hinit
  have htable : RegionTable fresh.1.regions := hvVmInit_table hinit
  have hstored : (addRegions fresh.1 rs).2 = { fresh.1 with regions := rs } := by
    rw [addRegions_accepted htable hok, hempty, List.nil_append]
  have hrs : RegionTable rs := by
    have := htable.addRegions rs
    rwa [hstored] at this
  have hvm : Refines P (addRegions fresh.1 rs).2 fresh.2 ⟨rs, BudgetedMap.empty⟩ := by
    rw [hstored]
    obtain ⟨-, t, ht⟩ := href
    have hh := ht.holds
    exact ⟨rfl, t, ⟨hh.id_lt, hh.rootVa, hh.poolVa, hh.rootPa, hh.poolPa, hh.poolPages,
      hh.poolUsed, hh.repr⟩, ht.nodes, ht.leaf⟩
  have hcall : Agrees P (addRegions fresh.1 rs).2 fresh.2 built
      (AddressSpace.build ⟨rs, BudgetedMap.empty⟩ rs) := by
    have hregions : (addRegions fresh.1 rs).2.regions = rs := hvm.regions
    change Agrees P _ _ (buildRegions _ _ (addRegions fresh.1 rs).2.regions) _
    rw [hregions]
    exact hvm.build hrs rs
  have hsound : (AddressSpace.build ⟨rs, BudgetedMap.empty⟩ rs).2.Sound :=
    Sound.build ⟨hrs, fun v e he => by cases he⟩ rs
  obtain ⟨hcode, hentry⟩ := build_empty hrs
  refine ⟨hcall.code.trans hcode, fun hb x hx => ?_⟩
  have hentry := hentry (hcall.code.symm.trans hb)
  constructor
  · intro p
    rw [hcall.refines.translate_ok_iff hsound, AddressSpace.translate_ok_iff hx]
    constructor
    · rintro ⟨e, he, hp⟩
      obtain ⟨r, hr, hram, hspan, rfl⟩ := (hentry _ _).mp he
      rw [(hrs.valid r hr).translate_mapping hram hspan] at hp
      exact ⟨r, hr, hram, (hrs.valid r hr).page_mem_span.mp hspan, hp⟩
    · rintro ⟨r, hr, hram, hspan, hp⟩
      have hpage := (hrs.valid r hr).page_mem_span.mpr hspan
      refine ⟨r.mapping (x.toNat / 4096), (hentry _ _).mpr ⟨r, hr, hram, hpage, rfl⟩, ?_⟩
      rw [(hrs.valid r hr).translate_mapping hram hpage, hp]
  · intro entry hw hv
    obtain ⟨e, he, hdesc⟩ := hcall.refines.leaf_valid hx hw hv
    obtain ⟨r, hr, hram, hspan, rfl⟩ := (hentry _ _).mp he
    refine ⟨r, hr, hram, (hrs.valid r hr).page_mem_span.mp hspan, ?_⟩
    rw [hdesc]
    exact pageDesc_outside _ _

/-- A VM with one page of RAM translates an address of that page. -/
theorem build_outcome_one_page :
    let ram : HvVmRegion :=
      { ipaBase := 0x400000, size := 0x1000, paBase := 0x800000,
        attrs := hvStage2PageNormalNcRw, type := .ram, device := .none }
    let fresh := (hvVmInit .twoSlots ⟨0, 0, [], ⟨0, 0, 0, 0, 0, 0⟩⟩ (fun _ => 0) 1 7).2
    let built := hvVmBuildStage2 (addRegions fresh.1 [ram]).2 fresh.2
    hvStage2Translate built.2.1 built.2.2 0x400123 = .ok 0x800123 := by
  intro ram fresh built
  have hok : built.1 = hvVmOk := by decide +kernel
  have hspan : (0x400123 : HvIpa).toNat ∈ ram.span := ⟨by decide, by decide⟩
  have hout := build_outcome .twoSlots ⟨0, 0, [], ⟨0, 0, 0, 0, 0, 0⟩⟩ (fun _ => 0) 1 7 [ram] rfl
    (by decide)
  exact ((hout.2 hok 0x400123 (by decide)).1 0x800123).mpr
    ⟨ram, List.mem_singleton_self ram, rfl, hspan, rfl⟩

end PiPervisor.Stage2
