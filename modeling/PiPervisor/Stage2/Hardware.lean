import PiPervisor.Library.LongDescriptor
import PiPervisor.Stage2.SharedPools

/-! # The walk of the processor

The pools lie in physical memory, and the processor finds its way through them
without the bookkeeping of the VMs: from the root that VTTBR names, by the
addresses in the descriptors. It ends at the descriptor that the code of the
hypervisor ends at.
-/
namespace PiPervisor.Stage2
open Library Library.BitField Library.Memory Library.Transition Library.LongDescriptor AddressSpace

variable {P : Platform} {vm : HvVm} {m : TablePools} {pages : PageMap} {t : Tree}
  {a : AddressSpace} {mem : PhysMem}

/-- The array of pools in physical memory. -/
def tablesIn (P : Platform) (mem : PhysMem) : TablePools := fun n =>
  readDesc mem (P.stage2TablePools + 8 * n)

/-- The pool of the VM with this id is in physical memory. -/
def PoolIn (P : Platform) (mem : PhysMem) (m : TablePools) (id : ℕ) : Prop :=
  ∀ n ∈ ownPool id, tablesIn P mem n = m n

theorem outputBase_eq (d : HvStage2Desc) : outputBase d 12 = (d &&& hvStage2DescAddrMask).toNat :=
  (toNat_and_field d addrMask_isField).symm

/-- The two lowest bits tag a table or a page. -/
theorem getLsbD_of_tag {d : HvStage2Desc} (h : d &&& hvStage2DescTable = hvStage2DescTable) :
    d.getLsbD 0 = true ∧ d.getLsbD 1 = true := by
  have hbit (i : ℕ) : (d.getLsbD i && hvStage2DescTable.getLsbD i) = hvStage2DescTable.getLsbD i := by
    rw [← BitVec.getLsbD_and, h]
  have h0 := hbit 0
  have h1 := hbit 1
  rw [show hvStage2DescTable.getLsbD 0 = true by decide, Bool.and_true] at h0
  rw [show hvStage2DescTable.getLsbD 1 = true by decide, Bool.and_true] at h1
  exact ⟨h0, h1⟩

/-- The address of a descriptor of the pool, from that of its table. -/
theorem readDesc_poolSlot (hp : PoolIn P mem m vm.id) {n : ℕ} (hn : n < 8) (k : Index) :
    readDesc mem (tableAddr P vm.id n + 8 * k.val) = m (poolSlot vm.id n k) := by
  rw [← hp _ (poolSlot_mem vm.id n k hn), tablesIn, tableAddr, poolSlot]
  congr 1
  omega

/-- The VTCR of the hypervisor: a walk of three levels, over addresses of 32 bits. -/
theorem walkShifts_vtcrDefault : walkShifts hvStage2VtcrDefault = [30, 21, 12] := by decide

theorem inputBits_vtcrDefault : inputBits hvStage2VtcrDefault = 32 := by decide

/-- One level of the walk, at a table of the pool. -/
theorem Holds.walk_level (h : Holds P vm m t) (hp : PoolIn P mem m vm.id) {n : ℕ} {p : Path}
    (hn : t.nodes[n]? = some p) (hlen : p.length + 1 < 3) {shift ia : ℕ} {k : Index}
    (hk : ia / 2 ^ shift % 512 = k.val) (shifts : List ℕ) (hs : shifts ≠ []) :
    (∃ q, t.nodes[q]? = some (p ++ [k]) ∧ q < 8 ∧
      walk mem ia (shift :: shifts) (tableAddr P vm.id n) =
        walk mem ia shifts (tableAddr P vm.id q)) ∨
    (p ++ [k] ∉ t.nodes ∧
      walk mem ia (shift :: shifts) (tableAddr P vm.id n) = .error .translation) := by
  have hn8 : n < 8 := lt_of_lt_of_le (t.lt_length hn) h.repr.fits
  have hread := readDesc_poolSlot hp hn8 k
  rcases h.repr.interior k hn hlen with ⟨q, hq, hc⟩ | ⟨hfree, hc⟩
  · have hq8 : q < 8 := lt_of_lt_of_le (t.lt_length hq) h.repr.fits
    have haddr := h.toNat_addr hq8
    obtain ⟨h0, h1⟩ := getLsbD_of_tag (d := link P vm.id q) (tableDesc_tag _)
    refine .inl ⟨q, hq, hq8, ?_⟩
    rw [walk_table (d := link P vm.id q) (by rw [hk, hread, hc]) h0 h1 hs, outputBase_eq, link,
      tableDesc_addr _ (by rw [haddr]; exact tableAddr_aligned _ _)
        (by rw [haddr]; exact tableAddr_lt h.id_lt hq8), haddr]
  · exact .inr ⟨hfree, walk_invalid (d := hvStage2DescInvalid) (by rw [hk, hread, hc]) (by decide)⟩

/-- The whole walk of an address: its page's descriptor, or a fault if the page is not mapped. -/
theorem Stores.hardware_walk (h : Stores P vm m pages t) (hp : PoolIn P mem m vm.id) {x : ℕ}
    (hx : x < 2 ^ 32) :
    LongDescriptor.walk mem x (walkShifts hvStage2VtcrDefault) (tableAddr P vm.id 0) =
      match pages.entry (x / 4096) with
      | none => .error .translation
      | some e => .ok (pageDesc (BitVec.ofNat 64 (e.page * 4096)) e.attrs, 12) := by
  have hv : x / 4096 < 2 ^ 20 := by omega
  have hindex (s : ℕ) : x / 2 ^ (12 + s) % 512 = (pageIx (x / 4096) s).val := by
    rw [Nat.pow_add, ← Nat.div_div_eq_div_mul]
    rfl
  rw [walkShifts_vtcrDefault]
  rcases h.holds.walk_level hp t.root (by decide) (hindex 18) [21, 12] (by simp) with
    ⟨q, hq, hq8, he⟩ | ⟨hfree, he⟩
  · rcases h.holds.walk_level hp hq (by simp) (hindex 9) [12] (by simp) with
      ⟨q2, hq2, hq28, he2⟩ | ⟨hfree2, he2⟩
    · have hleaf := h.leafCell hv hq2
      have hread := readDesc_poolSlot hp hq28 (pageIx (x / 4096) 0)
      rw [he, he2]
      cases hent : pages.entry (x / 4096) with
      | none =>
        rw [hent] at hleaf
        exact walk_invalid (by rw [hindex 0, hread, hleaf]) (by decide)
      | some e =>
        rw [hent] at hleaf
        obtain ⟨h0, h1⟩ := getLsbD_of_tag (pageDesc_tag (BitVec.ofNat 64 (e.page * 4096)) e.attrs)
        exact walk_page (by rw [hindex 0, hread, hleaf, leafDesc]) h0 h1
    · rw [he, he2, h.entry_none hv hfree2]
  · rw [he, h.entry_none hv fun hc => hfree (t.parent [_] _ hc)]

/-- What the walk of a VM's address finds, if its pool is in memory. -/
theorem Refines.hardware_walk (h : Refines P vm m a) (hp : PoolIn P mem m vm.id) {x : ℕ}
    (hx : x < 2 ^ 32) : walk mem x (walkShifts hvStage2VtcrDefault) vm.stage2.rootPa.toNat =
      match a.pages.entry (x / 4096) with
      | none => .error .translation
      | some e => .ok (pageDesc (BitVec.ofNat 64 (e.page * 4096)) e.attrs, 12) := by
  obtain ⟨-, t, ht⟩ := h
  rw [ht.holds.rootPa, ht.holds.toNat_addr (by decide), ht.hardware_walk hp hx]

/-- The root table is aligned and lies below the 40 bits of VTTBR's address. -/
theorem Refines.rootPa (h : Refines P vm m a) :
    vm.stage2.rootPa.toNat % 4096 = 0 ∧ vm.stage2.rootPa.toNat < 2 ^ 40 := by
  obtain ⟨-, t, ht⟩ := h
  rw [ht.holds.rootPa, ht.holds.toNat_addr (by decide)]
  exact ⟨tableAddr_aligned _ _, tableAddr_lt ht.holds.id_lt (by decide)⟩

/-- A page descriptor leads to its page, whatever its attributes are. -/
theorem outputAddress_pageDesc {page : ℕ} (hpage : page < 2 ^ 28) (attrs : BitVec 64) (x : ℕ) :
    outputAddress (pageDesc (BitVec.ofNat 64 (page * 4096)) attrs) 12 x =
      page * 4096 + x % 4096 := by
  have hpa : (BitVec.ofNat 64 (page * 4096)).toNat = page * 4096 := by
    rw [BitVec.toNat_ofNat]
    omega
  rw [outputAddress, outputBase_eq, pageDesc_addr _ _ (by omega) (by omega), hpa]
  rfl

/-- The attributes of a page descriptor are those it was made with, and its tag. -/
theorem pageDesc_attrs (pa : HvPa) (attrs : BitVec 64) :
    pageDesc pa attrs &&& ~~~hvStage2DescAddrMask =
      attrs &&& ~~~hvStage2DescAddrMask ||| hvStage2DescPage :=
  and_not_field_pack hvStage2DescAddrMask pa attrs hvStage2DescPage (by decide)

/-- A bit of the attributes is a bit of the descriptor. -/
theorem getLsbD_pageDesc (pa : HvPa) (attrs : BitVec 64) {k : ℕ} (hk : k < 64)
    (hmask : hvStage2DescAddrMask.getLsbD k = false) :
    (pageDesc pa attrs).getLsbD k = (attrs.getLsbD k || hvStage2DescPage.getLsbD k) := by
  have h := congrArg (·.getLsbD k) (pageDesc_attrs pa attrs)
  simpa only [BitVec.getLsbD_and, BitVec.getLsbD_or, BitVec.getLsbD_not, hmask, hk, decide_true,
    Bool.not_false, Bool.and_true] using h

/-- The descriptor that the processor finds permits what the mapping permits. -/
theorem permits_pageDesc (pa : HvPa) (attrs : BitVec 64) (access : Access) :
    permits (pageDesc pa attrs) access = permits attrs access := by
  have hbit {k : ℕ} (hk : k < 64) (hmask : hvStage2DescAddrMask.getLsbD k = false)
      (htag : hvStage2DescPage.getLsbD k = false) :
      (pageDesc pa attrs).getLsbD k = attrs.getLsbD k := by
    rw [getLsbD_pageDesc pa attrs hk hmask, htag, Bool.or_false]
  cases access with
  | read => exact hbit (by decide) (by decide) (by decide)
  | write => exact hbit (by decide) (by decide) (by decide)
  | fetch =>
    rw [permits, permits, hbit (by decide) (by decide) (by decide),
      hbit (by decide) (by decide) (by decide)]

/-- The access flag, then the permissions: what an access to a mapped page comes to. -/
def checkedAccess (attrs : BitVec 64) (access : Access) (p : ℕ) : Except Fault ℕ :=
  if attrs.getLsbD 10 = false then .error .accessFlag
  else if !permits attrs access then .error .permission
  else .ok p

/-- An access of the lower modes, under the VTCR of the hypervisor. -/
theorem Refines.hardware_access (h : Refines P vm m a) (hs : a.Sound) (hp : PoolIn P mem m vm.id)
    (access : Access) {x : ℕ} (hx : x < 2 ^ 32) :
    LongDescriptor.translate mem hvStage2VtcrDefault vm.stage2.rootPa.toNat access x =
      match a.pages.entry (x / 4096) with
      | none => .error .translation
      | some e => checkedAccess e.attrs access (e.page * 4096 + x % 4096) := by
  rw [LongDescriptor.translate, inputBits_vtcrDefault, if_neg (by omega), h.hardware_walk hp hx]
  rcases hent : a.pages.entry (x / 4096) with - | e
  · rfl
  · have hpage := (hs.page_lt hent).2
    have hflag : (pageDesc (BitVec.ofNat 64 (e.page * 4096)) e.attrs).getLsbD 10 =
        e.attrs.getLsbD 10 := by
      rw [getLsbD_pageDesc _ _ (by decide) (by decide),
        show hvStage2DescPage.getLsbD 10 = false by decide, Bool.or_false]
    dsimp only
    rw [hflag, permits_pageDesc, outputAddress_pageDesc (by omega), checkedAccess]

/-- The translation of the hypervisor, by the entry of the page. -/
theorem Refines.hvStage2Translate_eq (h : Refines P vm m a) (hs : a.Sound) (x : BitVec 32) :
    (hvStage2Translate vm m (x.setWidth 64)).toOption.map BitVec.toNat =
      (a.pages.entry (x.toNat / 4096)).map fun e => e.page * 4096 + x.toNat % 4096 := by
  have hlt := x.isLt
  have hx : (x.setWidth 64).toNat = x.toNat := by
    rw [BitVec.toNat_setWidth]
    omega
  have htrans := h.translate hs (x.setWidth 64)
  rw [hx, AddressSpace.translate, if_neg (by omega)] at htrans
  rcases hent : a.pages.entry (x.toNat / 4096) with - | e <;> rw [hent] at htrans
  · rcases ht : hvStage2Translate vm m (x.setWidth 64) with e | p
    · rfl
    · rw [ht] at htrans
      cases htrans
  · rcases ht : hvStage2Translate vm m (x.setWidth 64) with e' | p
    · rw [ht] at htrans
      cases htrans
    · rw [ht] at htrans
      exact congrArg some (Except.ok.inj htrans)

/-- A memory that holds nothing but the pools. -/
def poolMemory (P : Platform) (m : TablePools) : PhysMem := fun a =>
  if a < P.stage2TablePools then 0
  else ((m ((a - P.stage2TablePools) / 8)) >>> (8 * ((a - P.stage2TablePools) % 8))).setWidth 8

theorem tablesIn_poolMemory (P : Platform) (m : TablePools) : tablesIn P (poolMemory P m) = m := by
  funext n
  have hbyte {k : ℕ} (hk : k < 8) : poolMemory P m (P.stage2TablePools + 8 * n + k) =
      (m n >>> (8 * k)).setWidth 8 := by
    rw [poolMemory, if_neg (by omega), show (P.stage2TablePools + 8 * n + k - P.stage2TablePools) / 8
      = n by omega, show (P.stage2TablePools + 8 * n + k - P.stage2TablePools) % 8 = k by omega]
  have h0 := hbyte (k := 0) (by decide)
  rw [Nat.add_zero] at h0
  rw [tablesIn, readDesc, hbyte (by decide), hbyte (by decide), hbyte (by decide),
    hbyte (by decide), hbyte (by decide), hbyte (by decide), hbyte (by decide), h0]
  simp only [BitVec.setWidth_ushiftRight_eq_extractLsb]
  rw [BitVec.extractLsb'_append_extractLsb'_eq_extractLsb' (by rfl),
    BitVec.extractLsb'_append_extractLsb'_eq_extractLsb' (by rfl),
    BitVec.extractLsb'_append_extractLsb'_eq_extractLsb' (by rfl),
    BitVec.extractLsb'_append_extractLsb'_eq_extractLsb' (by rfl),
    BitVec.extractLsb'_append_extractLsb'_eq_extractLsb' (by rfl),
    BitVec.extractLsb'_append_extractLsb'_eq_extractLsb' (by rfl),
    BitVec.extractLsb'_append_extractLsb'_eq_extractLsb' (by rfl)]
  exact BitVec.extractLsb'_eq_self

end PiPervisor.Stage2
