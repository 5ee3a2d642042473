import PiPervisor.Stage2.Build
import PiPervisor.Stage2.Policy

/-! # Mappings that fail half way

A range is mapped page by page and nothing is taken back. What a failed call
leaves behind is the range up to the page that was refused, and no translation
that existed before is lost or changed.
-/
namespace PiPervisor.Stage2
open Library AddressSpace

/-- The first `n` pages of the range have been mapped, and nothing else has changed. -/
structure MappedUpTo (a a' : AddressSpace) (ipa pa : ℕ) (attrs : BitVec 64) (n : ℕ) : Prop where
  unmapped : ∀ k < n, a.pages.entry (ipa / 4096 + k) = none
  mapped : ∀ k < n, a'.pages.entry (ipa / 4096 + k) = some ⟨pa / 4096 + k, attrs⟩
  rest : ∀ v, (∀ k < n, v ≠ ipa / 4096 + k) → a'.pages.entry v = a.pages.entry v

variable {P : Platform} {vm : HvVm} {m : TablePools} {a : AddressSpace} {pages : PageMap} {t : Tree}
  {ipa pa size n : ℕ} {attrs : BitVec 64}

theorem MappedUpTo.zero (a : AddressSpace) (ipa pa : ℕ) (attrs : BitVec 64) :
    MappedUpTo a a ipa pa attrs 0 := ⟨nofun, nofun, fun _ _ => rfl⟩

/-- The part of a range before one of its pages is a shorter range. -/
theorem rangePages_split {done rest : List (ℕ × Mapping)} {v : ℕ} {e : Mapping}
    (h : rangePages ipa pa size attrs = done ++ (v, e) :: rest) :
    done = rangePages ipa pa (done.length * 4096) attrs ∧ v = ipa / 4096 + done.length ∧
      done.length < size / 4096 := by
  have hlen : size / 4096 = done.length + (rest.length + 1) := by
    have := congrArg List.length h
    simpa [rangePages] using this
  have hdone : done = (rangePages ipa pa size attrs).take done.length := by
    rw [h, List.take_left]
  have hat : (rangePages ipa pa size attrs)[done.length]? = some (v, e) := by
    rw [h, List.getElem?_append_right le_rfl, Nat.sub_self]
    rfl
  refine ⟨?_, ?_, by omega⟩
  · apply hdone.trans
    rw [rangePages, rangePages, ← List.map_take, List.take_range,
      Nat.mul_div_cancel _ (by decide), Nat.min_eq_left (by omega)]
  · rw [rangePages, List.getElem?_map, List.getElem?_range (by omega)] at hat
    simp only [Option.map_some, Option.some.injEq, Prod.mk.injEq] at hat
    exact hat.1.symm

theorem mem_rangePages_keys {v : ℕ} :
    v ∈ (rangePages ipa pa (n * 4096) attrs).map Prod.fst ↔ ∃ k < n, v = ipa / 4096 + k := by
  simp only [rangePages, List.map_map, List.mem_map, List.mem_range, Function.comp_apply,
    Nat.mul_div_cancel n (by decide : 0 < 4096), eq_comm (b := v)]

/-- A range that goes in completely is mapped up to its end. -/
theorem mappedUpTo_of_inserted (hb : a.pages.held.length ≤ tableBudget)
    (hi : (a.pages.insertAll tableBudget tablesOf (rangePages ipa pa (n * 4096) attrs)).1 =
      .inserted) {a' : AddressSpace}
    (ha' : a'.pages.entry =
      (a.pages.insertAll tableBudget tablesOf (rangePages ipa pa (n * 4096) attrs)).2.entry) :
    MappedUpTo a a' ipa pa attrs n := by
  have hall := (BudgetedMap.insertAll_inserted_iff _ _ _ _ hb).mp hi
  have hentry := BudgetedMap.insertAll_entry_of_inserted _ _ _ _ hb hi
  have hmem (k : ℕ) (hk : k < n) :
      (ipa / 4096 + k, (⟨pa / 4096 + k, attrs⟩ : Mapping)) ∈
        rangePages ipa pa (n * 4096) attrs := by
    rw [rangePages, Nat.mul_div_cancel _ (by decide)]
    exact List.mem_map.mpr ⟨k, List.mem_range.mpr hk, rfl⟩
  constructor
  · exact fun k hk => hall.2.1 _ (hmem k hk)
  · intro k hk
    rw [ha']
    exact hentry.1 _ (hmem k hk)
  · intro v hv
    rw [ha']
    apply hentry.2 v
    intro hkey
    obtain ⟨k, hk, rfl⟩ := mem_rangePages_keys.mp hkey
    exact hv k hk rfl

/-- Where a failed range stops, and why. -/
theorem AddressSpace.mapRange_failed (hb : a.pages.held.length ≤ tableBudget)
    (hc : (a.mapRange ipa pa size attrs).1 ≠ hvStage2Ok) :
    ∃ n < size / 4096, MappedUpTo a (a.mapRange ipa pa size attrs).2 ipa pa attrs n ∧
      ((a.mapRange ipa pa size attrs).1 = hvStage2ErrMapped ∧
          a.pages.entry (ipa / 4096 + n) ≠ none ∨
        (a.mapRange ipa pa size attrs).1 = hvStage2ErrNoTables ∧
          ∃ r ∈ tablesOf (ipa / 4096 + n), r ∉ (a.mapRange ipa pa size attrs).2.pages.held) := by
  have hi := mt (outcomeCode_eq_ok_iff _).mpr hc
  obtain ⟨done, v, e, rest, hsplit, hdone, hlast⟩ :=
    BudgetedMap.insertAll_stops tableBudget tablesOf _ _ hi
  obtain ⟨hrange, rfl, hlt⟩ := rangePages_split hsplit
  have hentry := BudgetedMap.insert_entry tableBudget tablesOf
    (a.pages.insertAll tableBudget tablesOf done).2 (ipa / 4096 + done.length) e
  rw [← hlast, if_neg hi] at hentry
  have hup : MappedUpTo a (a.mapRange ipa pa size attrs).2 ipa pa attrs done.length := by
    refine mappedUpTo_of_inserted hb ?_ ?_
    · rw [← hrange]
      exact hdone
    · rw [← hrange]
      exact hentry
  refine ⟨done.length, hlt, hup, ?_⟩
  cases ho : (a.pages.insertAll tableBudget tablesOf (rangePages ipa pa size attrs)).1 with
  | inserted => exact absurd ho hi
  | present =>
    refine .inl ⟨congrArg outcomeCode ho, ?_⟩
    have hp := BudgetedMap.insert_present tableBudget tablesOf ((congrArg Prod.fst hlast).symm.trans ho)
    rw [← hentry] at hp
    rwa [← hup.rest _ fun k hk => by omega]
  | exhausted =>
    refine .inr ⟨congrArg outcomeCode ho, ?_⟩
    have hx := BudgetedMap.insert_exhausted tableBudget tablesOf
      ((congrArg Prod.fst hlast).symm.trans ho)
    rwa [← hlast] at hx

/-- A mapped page holds both of its tables. -/
theorem Stores.tables_held (h : Stores P vm m pages t) {v : ℕ} (hv : v < 2 ^ 20)
    (he : pages.entry v ≠ none) : ∀ r ∈ tablesOf v, r ∈ pages.held := by
  have hl3 : [pageIx v 18] ++ [pageIx v 9] ∈ t.nodes := not_not.mp (mt (h.entry_none hv) he)
  exact h.tables_of_node hl3

/-- Where a failed mapping stops: at once, or at a page of a backed range. -/
theorem AddressSpace.mapRegion_failed (hs : a.Sound) (hb : a.pages.held.length ≤ tableBudget)
    (hc : (a.mapRegion ipa pa size attrs).1 ≠ hvStage2Ok) :
    ∃ n, MappedUpTo a (a.mapRegion ipa pa size attrs).2 ipa pa attrs n ∧
      (n = 0 ∧ ((a.mapRegion ipa pa size attrs).1 = hvStage2ErrInval ∨
          (a.mapRegion ipa pa size attrs).1 = hvStage2ErrRange) ∨
        (ipa % 4096 = 0 ∧ pa % 4096 = 0 ∧ n * 4096 < size ∧ ipa + size ≤ 2 ^ 32 ∧
            pa + size ≤ 2 ^ 32) ∧
          ((a.mapRegion ipa pa size attrs).1 = hvStage2ErrMapped ∧
              a.pages.entry (ipa / 4096 + n) ≠ none ∨
            (a.mapRegion ipa pa size attrs).1 = hvStage2ErrNoTables ∧
              ∃ r ∈ tablesOf (ipa / 4096 + n),
                r ∉ (a.mapRegion ipa pa size attrs).2.pages.held)) := by
  rw [AddressSpace.mapRegion] at hc ⊢
  by_cases hbad : BadRange ipa pa size
  · rw [if_pos hbad]
    exact ⟨0, .zero a ipa pa attrs, .inl ⟨rfl, .inl rfl⟩⟩
  · rw [if_neg hbad] at hc ⊢
    by_cases hback : Backed a.regions ipa pa size
    · rw [if_pos hback] at hc ⊢
      obtain ⟨n, hn, hup, hwhy⟩ := mapRange_failed hb hc
      obtain ⟨hi, hp⟩ := backed_fits hs.table hback
      simp only [BadRange, not_or, not_not] at hbad
      exact ⟨n, hup, .inr ⟨⟨hbad.1, hbad.2.1, by omega, hi, hp⟩, hwhy⟩⟩
    · rw [if_neg hback]
      exact ⟨0, .zero a ipa pa attrs, .inl ⟨rfl, .inr rfl⟩⟩

theorem Refines.translate_error_iff (h : Refines P vm m a) (hs : a.Sound) {x : HvIpa} {e : ℤ} :
    hvStage2Translate vm m x = .error e ↔ a.translate x.toNat = .error e := by
  rw [← h.translate hs]
  cases hvStage2Translate vm m x <;> simp [Except.map]

theorem AddressSpace.translate_error_iff {x : ℕ} (hx : x < 2 ^ 32) :
    a.translate x = .error hvStage2ErrUnmapped ↔ a.pages.entry (x / 4096) = none := by
  rw [AddressSpace.translate, if_neg (Nat.not_le_of_lt hx)]
  cases a.pages.entry (x / 4096) <;> simp

/-- Address spaces with the same entry for a page translate its addresses alike. -/
theorem Refines.translate_congr {vm' : HvVm} {m' : TablePools} {a' : AddressSpace}
    (h : Refines P vm m a) (hs : a.Sound) (h' : Refines P vm' m' a') (hs' : a'.Sound) {x : HvIpa}
    (hx : a'.pages.entry (x.toNat / 4096) = a.pages.entry (x.toNat / 4096)) :
    hvStage2Translate vm' m' x = hvStage2Translate vm m x := by
  have hsame : a'.translate x.toNat = a.translate x.toNat := by
    rw [AddressSpace.translate, AddressSpace.translate, hx]
  cases ht : hvStage2Translate vm m x with
  | error e =>
    rw [h'.translate_error_iff hs', hsame, ← h.translate_error_iff hs]
    exact ht
  | ok p =>
    rw [h'.translate_ok_iff hs', hsame, ← h.translate_ok_iff hs]
    exact ht

theorem toNat_add_pages {b : BitVec 64} {n : ℕ} (h : b.toNat + n * 4096 < 2 ^ 32) :
    (b + BitVec.ofNat 64 (n * 4096)).toNat = b.toNat + n * 4096 := by
  rw [BitVec.toNat_add, BitVec.toNat_ofNat]
  omega

/-- A failed call mapped the first `n` pages of the range and stopped at the next one. -/
structure FailedAfter (s : HvVm × TablePools) (res : ℤ × HvVm × TablePools)
    (ipa pa size : BitVec 64) (n : ℕ) : Prop where
  mapped : ∀ x : HvIpa, ipa.toNat ≤ x.toNat → x.toNat < ipa.toNat + n * 4096 →
    hvStage2Translate s.1 s.2 x = .error hvStage2ErrUnmapped ∧
      ∃ p, hvStage2Translate res.2.1 res.2.2 x = .ok p ∧
        p.toNat = pa.toNat + (x.toNat - ipa.toNat)
  kept : ∀ x : HvIpa, x.toNat < 2 ^ 32 → ¬ (ipa.toNat ≤ x.toNat ∧ x.toNat < ipa.toNat + n * 4096) →
    hvStage2Translate res.2.1 res.2.2 x = hvStage2Translate s.1 s.2 x
  stop : n = 0 ∧ (res.1 = hvStage2ErrInval ∨ res.1 = hvStage2ErrRange) ∨
    n * 4096 < size.toNat ∧ ipa.toNat + size.toNat ≤ 2 ^ 32 ∧
      (res.1 = hvStage2ErrMapped ∧
          (∃ p, hvStage2Translate s.1 s.2 (ipa + BitVec.ofNat 64 (n * 4096)) = .ok p) ∨
        res.1 = hvStage2ErrNoTables ∧
          hvStage2Translate s.1 s.2 (ipa + BitVec.ofNat 64 (n * 4096)) =
            .error hvStage2ErrUnmapped)

theorem FailedAfter.unchanged_iff {s : HvVm × TablePools} {res : ℤ × HvVm × TablePools}
    {ipa pa size : BitVec 64} (h : FailedAfter s res ipa pa size n) :
    (∀ x : HvIpa, x.toNat < 2 ^ 32 →
      hvStage2Translate res.2.1 res.2.2 x = hvStage2Translate s.1 s.2 x) ↔ n = 0 := by
  constructor
  · intro hsame
    by_contra hn
    have hlt : ipa.toNat < 2 ^ 32 := by
      rcases h.stop with h0 | h0
      · exact absurd h0.1 hn
      · omega
    obtain ⟨hbefore, p, hafter, -⟩ := h.mapped ipa le_rfl (by omega)
    cases hbefore.symm.trans ((hsame ipa hlt).symm.trans hafter)
  · rintro rfl x hx
    exact h.kept x hx (by omega)

/-- The first pages of a range, as translated before and after they were mapped. -/
theorem MappedUpTo.translate {vm' : HvVm} {m' : TablePools} {a' : AddressSpace} {ipa pa : BitVec 64}
    (hup : MappedUpTo a a' ipa.toNat pa.toNat attrs n) (h : Refines P vm m a) (hs : a.Sound)
    (h' : Refines P vm' m' a') (hs' : a'.Sound) (hi : ipa.toNat % 4096 = 0)
    (hp : pa.toNat % 4096 = 0) {x : HvIpa} (hle : ipa.toNat ≤ x.toNat)
    (hlt : x.toNat < ipa.toNat + n * 4096) :
    hvStage2Translate vm m x = .error hvStage2ErrUnmapped ∧
      ∃ p, hvStage2Translate vm' m' x = .ok p ∧ p.toNat = pa.toNat + (x.toNat - ipa.toNat) := by
  obtain ⟨k, hk, hv⟩ : ∃ k < n, x.toNat / 4096 = ipa.toNat / 4096 + k :=
    ⟨x.toNat / 4096 - ipa.toNat / 4096, by omega, by omega⟩
  have hbefore := hup.unmapped k hk
  have hafter := hup.mapped k hk
  rw [← hv] at hbefore hafter
  have hpage := hs'.page_lt hafter
  have hx : x.toNat < 2 ^ 32 := by omega
  dsimp only at hpage
  refine ⟨?_, BitVec.ofNat 64 (pa.toNat + (x.toNat - ipa.toNat)), ?_, ?_⟩
  · rw [h.translate_error_iff hs, AddressSpace.translate_error_iff hx]
    exact hbefore
  · rw [h'.translate_ok_iff hs', AddressSpace.translate_ok_iff hx]
    refine ⟨_, hafter, ?_⟩
    rw [BitVec.toNat_ofNat]
    dsimp only
    omega
  · rw [BitVec.toNat_ofNat]
    omega

/-- What a failed mapping call does to the translations of a VM. -/
theorem Refines.mapRegion_failed (h : Refines P vm m a) (hs : a.Sound) {ipa pa size : BitVec 64}
    (hc : (hvStage2MapRegion vm m ipa pa size attrs).1 ≠ hvStage2Ok) :
    ∃ n, FailedAfter (vm, m) (hvStage2MapRegion vm m ipa pa size attrs) ipa pa size n := by
  have hcall := h.mapRegion hs.table ipa pa size attrs
  have hs' := hs.mapRegion ipa.toNat pa.toNat size.toNat attrs
  have hb : a.pages.held.length ≤ tableBudget := by
    obtain ⟨-, t, ht⟩ := h
    exact ht.held_length
  obtain ⟨n, hup, hwhy⟩ := AddressSpace.mapRegion_failed hs hb (hcall.code ▸ hc)
  rw [← hcall.code] at hwhy
  refine ⟨n, ?_, ?_, ?_⟩
  · intro x hle hlt
    rcases hwhy with ⟨rfl, -⟩ | ⟨⟨hi, hp, -⟩, -⟩
    · omega
    · exact hup.translate h hs hcall.refines hs' hi hp hle hlt
  · intro x hx hout
    refine h.translate_congr hs hcall.refines hs' (hup.rest _ fun k hk hv => hout ?_)
    rcases hwhy with ⟨rfl, -⟩ | ⟨⟨hi, -⟩, -⟩
    · omega
    · omega
  · apply hwhy.imp_right
    intro hstop
    obtain ⟨⟨hi, -, hn, hfit, -⟩, hcase⟩ := hstop
    have hx := toNat_add_pages (b := ipa) (n := n) (by omega)
    have hv : (ipa.toNat + n * 4096) / 4096 = ipa.toNat / 4096 + n := by omega
    have hlt : (ipa + BitVec.ofNat 64 (n * 4096)).toNat < 2 ^ 32 := by omega
    refine ⟨hn, hfit, ?_⟩
    rcases hcase with ⟨hcode, he⟩ | ⟨hcode, r, hr, hheld⟩
    · obtain ⟨e, he⟩ := Option.ne_none_iff_exists'.mp he
      have hpage := (hs.page_lt he).2
      refine .inl ⟨hcode, BitVec.ofNat 64 (e.page * 4096), ?_⟩
      rw [h.translate_ok_iff hs, AddressSpace.translate_ok_iff hlt, hx, hv]
      refine ⟨e, he, ?_⟩
      rw [BitVec.toNat_ofNat]
      omega
    · refine .inr ⟨hcode, ?_⟩
      rw [h.translate_error_iff hs, AddressSpace.translate_error_iff hlt, hx, hv,
        ← hup.rest _ fun k hk => by omega]
      by_contra he
      obtain ⟨-, t', ht'⟩ := hcall.refines
      exact hheld (ht'.tables_held (by omega) he r hr)

/-- A mapping that fails has mapped the pages in front of the one that failed, and keeps them. -/
theorem map_region_failure (P : Platform) (vm : HvVm) (m : TablePools) (id : ℕ)
    (vmid : BitVec 32) (calls : List VmCall) (hinit : (hvVmInit P vm m id vmid).1 = hvVmOk)
    (ipa pa size attrs : BitVec 64) :
    let s := (vmRun (hvVmInit P vm m id vmid).2 calls).2
    let res := hvStage2MapRegion s.1 s.2 ipa pa size attrs
    res.1 ≠ hvStage2Ok → ∃ n, FailedAfter s res ipa pa size n ∧
      ((∀ x : HvIpa, x.toNat < 2 ^ 32 →
        hvStage2Translate res.2.1 res.2.2 x = hvStage2Translate s.1 s.2 x) ↔ n = 0) := by
  intro s res hc
  have href := hvVmInit_refines hinit
  obtain ⟨-, hrun, hsound⟩ := vmRun_refines href Sound.empty calls
  obtain ⟨n, hn⟩ := hrun.mapRegion_failed hsound hc
  exact ⟨n, hn, hn.unchanged_iff⟩

/-- Two pages of RAM of which the second is mapped already. -/
theorem map_region_failure_second_page :
    let ram : HvVmRegion :=
      { ipaBase := 0x400000, size := 0x2000, paBase := 0x800000,
        attrs := hvStage2PageNormalNcRw, type := .ram, device := .none }
    let calls := [.addRegion ram, .mapRegion 0x401000 0x801000 0x1000 hvStage2PageNormalNcRw]
    let s := (vmRun (hvVmInit .twoSlots ⟨0, 0, [], ⟨0, 0, 0, 0, 0, 0⟩⟩ (fun _ => 0) 1 7).2 calls).2
    let res := hvStage2MapRegion s.1 s.2 0x400000 0x800000 0x2000 hvStage2PageNormalNcRw
    ∃ n, FailedAfter s res 0x400000 0x800000 0x2000 n := by
  intro ram calls s res
  have hc : res.1 ≠ hvStage2Ok := by decide +kernel
  obtain ⟨n, hn, -⟩ := map_region_failure .twoSlots ⟨0, 0, [], ⟨0, 0, 0, 0, 0, 0⟩⟩ (fun _ => 0) 1 7
    calls rfl 0x400000 0x800000 0x2000 hvStage2PageNormalNcRw hc
  exact ⟨n, hn⟩

/-- The call for both pages fails and has mapped the first. -/
theorem map_region_failure_maps_first_page :
    let ram : HvVmRegion :=
      { ipaBase := 0x400000, size := 0x2000, paBase := 0x800000,
        attrs := hvStage2PageNormalNcRw, type := .ram, device := .none }
    let calls := [.addRegion ram, .mapRegion 0x401000 0x801000 0x1000 hvStage2PageNormalNcRw]
    let s := (vmRun (hvVmInit .twoSlots ⟨0, 0, [], ⟨0, 0, 0, 0, 0, 0⟩⟩ (fun _ => 0) 1 7).2 calls).2
    let res := hvStage2MapRegion s.1 s.2 0x400000 0x800000 0x2000 hvStage2PageNormalNcRw
    res.1 = hvStage2ErrMapped ∧
      ¬ ∀ x : HvIpa, x.toNat < 2 ^ 32 →
        hvStage2Translate res.2.1 res.2.2 x = hvStage2Translate s.1 s.2 x := by
  intro ram calls s res
  have hc : res.1 = hvStage2ErrMapped := by decide +kernel
  have hbefore : (hvStage2Translate s.1 s.2 0x400000).toOption = none := by decide +kernel
  have hafter : (hvStage2Translate res.2.1 res.2.2 0x400000).toOption = some 0x800000 := by
    decide +kernel
  refine ⟨hc, fun hsame => ?_⟩
  rw [hsame 0x400000 (by decide), hbefore] at hafter
  cases hafter

end PiPervisor.Stage2
