import PiPervisor.Loader.Reception

/-! # Integrity of the program

The host announces a checksum of the program, and the loader sends it back before the
program arrives. Nobody compares it with what has arrived: the program that the loader
branches to is the announced one only if no byte of it was damaged on the line.
-/
namespace PiPervisor.Loader
open Library.Channels

variable {start stop : BitVec 32} {info : ProgInfo} {received code : List Byte}

/-- The loader reports success and branches to the program, and has stored `code` for it. -/
def Boots (start stop : BitVec 32) (info : ProgInfo) (received code : List Byte) : Prop :=
  ∃ s rest output, Solo (PiState.act start stop) ⟨.header [], []⟩ (info.bytes ++ received) s rest
    output ∧ bootPutuint32 bootSuccess <:+ output ∧ s.pc = .branched info.baseAddr ∧
      s.stored.map Prod.snd = code

theorem storedFrom_map_snd (addr : BitVec 32) (i : ℕ) (code : List Byte) :
    (storedFrom addr i code).map Prod.snd = code := by
  rw [storedFrom, List.map_map]
  exact List.zipIdx_map_fst i code

/-- Any bytes of the announced length do. -/
theorem boots_of_stored (hc : ¬ collides start stop info = true) (haddr : info.baseAddr ≠ 0)
    {p rest : List Byte} (he : received = p ++ (code ++ rest)) (hp : FirstFound putCode p)
    (hlen : code.length = info.nbytes.toNat) : Boots start stop info received code := by
  have hend := (Reception.stored hc he hp hlen).solo
  rw [if_neg haddr] at hend
  exact ⟨_, _, _, hend, List.suffix_append _ _, rfl, storedFrom_map_snd _ _ _⟩

/-- There is no other way to boot. -/
theorem Boots.received_eq (h : Boots start stop info received code) :
    ¬ collides start stop info = true ∧ info.baseAddr ≠ 0 ∧ ∃ p rest,
      received = p ++ (code ++ rest) ∧ FirstFound putCode p ∧ code.length = info.nbytes.toNat := by
  obtain ⟨⟨pc, stored⟩, rest, output, hrun, -, rfl, hcode⟩ := h
  obtain ⟨s, rest', output', hr⟩ := exists_reception start stop info received
  obtain ⟨out, hon, -⟩ := hr.of_solo hrun
  -- a loader that has branched goes no further
  cases hon with
  | head hstep _ => cases hstep
  | refl =>
    have hbranched : (⟨.branched info.baseAddr, stored⟩ : PiState).pc = .branched info.baseAddr := rfl
    generalize (⟨.branched info.baseAddr, stored⟩ : PiState) = s at *
    cases hr with
    | refused | unfound | short => cases hbranched
    | stored hc he hp hlen =>
      rw [← hcode, storedFrom_map_snd]
      refine ⟨hc, fun hzero => ?_, _, _, he, hp, hlen⟩
      rw [if_pos hzero] at hbranched
      cases hbranched

/-- The loader starts no code but such with the announced checksum exactly if it refuses the header,
or the bytes that arrive have that checksum already: it never compares the two. -/
theorem boots_intact_iff (start stop : BitVec 32) (info : ProgInfo) (received : List Byte) :
    (∀ code, Boots start stop info received code → crc32 code = info.expectedCrc) ↔
      collides start stop info = true ∨ info.baseAddr = 0 ∨
        ∀ p code, received = p ++ code → FirstFound putCode p → info.nbytes.toNat ≤ code.length →
          crc32 (code.take info.nbytes.toNat) = info.expectedCrc := by
  refine ⟨fun h => ?_, fun h code hboots => ?_⟩
  · by_contra hno
    rw [not_or, not_or] at hno
    obtain ⟨hc, haddr, hno⟩ := hno
    refine hno fun p code he hp hlen => h _ ?_
    rw [← List.take_append_drop info.nbytes.toNat code] at he
    exact boots_of_stored hc haddr he hp (List.length_take_of_le hlen)
  · obtain ⟨hc, haddr, p, rest, he, hp, hlen⟩ := hboots.received_eq
    rcases h with h | h | h
    · exact absurd h hc
    · exact absurd h haddr
    · have hcrc := h p (code ++ rest) he hp (by rw [List.length_append]; omega)
      rwa [List.take_left' hlen] at hcrc

/-- One bit of a program of one byte has been damaged. -/
theorem boots_damaged : ¬ ∀ code,
    Boots 0x200000 0x201000 ⟨0x8000, 1, crc32 [0]⟩ (bootPutuint32 putCode ++ [1]) code →
      crc32 code = crc32 [0] := by
  intro h
  have hboots : Boots 0x200000 0x201000 ⟨0x8000, 1, crc32 [0]⟩ (bootPutuint32 putCode ++ [1]) [1] :=
    boots_of_stored (by decide) (by decide) (List.append_nil _).symm firstFound_putCode rfl
  exact absurd (h _ hboots) (by decide +kernel)

end PiPervisor.Loader
