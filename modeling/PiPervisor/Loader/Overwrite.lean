import PiPervisor.Library.WrappedRange
import PiPervisor.Loader.Reception

/-! # The range of the loader

The loader asks for a program only if its own range seems to be free of it. The test
adds the length to the address in 32 bits, so that a program that goes on past the end
of the address space can pass although it contains the loader.
-/
namespace PiPervisor.Loader
open Library.Channels Library.WrappedRange

variable {start stop : BitVec 32} {info : ProgInfo}

/-- The loader answers the header with the request for the program. -/
def AnswersGetCode (start stop : BitVec 32) (info : ProgInfo) : Prop :=
  ∃ s rest output, Solo (PiState.act start stop) ⟨.header [], []⟩ info.bytes s rest output ∧
    bootPutuint32 getCode <+: output

/-- The loader stores a byte at `x` if the right bytes arrive behind the header. -/
def Stores (start stop : BitVec 32) (info : ProgInfo) (x : BitVec 32) : Prop :=
  ∃ received s rest output, Solo (PiState.act start stop) ⟨.header [], []⟩ (info.bytes ++ received)
    s rest output ∧ x ∈ s.stored.map Prod.fst

section Receiving

theorem answersGetCode_iff : AnswersGetCode start stop info ↔ ¬ collides start stop info = true := by
  refine ⟨fun ⟨s, rest, output, hrun, hcode⟩ hc => ?_, fun hc => ?_⟩
  · rw [← List.append_nil info.bytes] at hrun
    obtain ⟨out, -, hout⟩ := (Reception.refused hc).of_solo hrun
    have hbad : bootPutuint32 getCode <+: bootPutuint32 badCodeAddr :=
      hcode.trans ⟨out, hout.symm⟩
    exact absurd hbad (by decide)
  · have hr : Reception start stop info [] _ _ _ := .unfound hc fun p hp hf => by
      rw [List.prefix_nil.mp hp] at hf
      exact hf.2 (by decide)
    have hrun := hr.solo
    rw [List.append_nil] at hrun
    exact ⟨_, _, _, hrun, List.prefix_append _ _⟩

theorem stored_grows_of_step {s s' : PiState} {input input' output : List Byte}
    (h : (s.act start stop).step input = some (s', input', output)) : s.stored <+: s'.stored := by
  cases PiState.moves_of_step h with
  | store byte _ => exact List.prefix_append _ _
  | _ => exact List.prefix_refl _

/-- What is stored stays stored. -/
theorem stored_grows {s s' : PiState} {input input' output : List Byte}
    (h : Solo (PiState.act start stop) s input s' input' output) : s.stored <+: s'.stored := by
  induction h with
  | refl => exact List.prefix_refl _
  | head hstep _ ih => exact (stored_grows_of_step hstep).trans ih

theorem storedFrom_map_fst (addr : BitVec 32) (i : ℕ) (code : List Byte) :
    (storedFrom addr i code).map Prod.fst =
      (List.range' i code.length).map fun j => addr + BitVec.ofNat 32 j := by
  rw [storedFrom, List.map_map, ← List.zipIdx_map_snd i code, List.map_map]
  rfl

/-- The loader stores the announced number of bytes, from the announced address on. -/
theorem stores_iff {x : BitVec 32} : Stores start stop info x ↔
    AnswersGetCode start stop info ∧ ∃ i < info.nbytes.toNat, x = info.baseAddr + BitVec.ofNat 32 i := by
  have hin {code : List Byte} (hlen : code.length ≤ info.nbytes.toNat)
      (hx : x ∈ (storedFrom info.baseAddr 0 code).map Prod.fst) :
      ∃ i < info.nbytes.toNat, x = info.baseAddr + BitVec.ofNat 32 i := by
    rw [storedFrom_map_fst] at hx
    obtain ⟨i, hi, rfl⟩ := List.mem_map.mp hx
    exact ⟨i, by rw [List.mem_range'_1] at hi; omega, rfl⟩
  rw [answersGetCode_iff]
  constructor
  · rintro ⟨received, s, rest, output, hrun, hx⟩
    obtain ⟨s', rest', output', hr⟩ := exists_reception start stop info received
    obtain ⟨out, hon, -⟩ := hr.of_solo hrun
    have hx' : x ∈ s'.stored.map Prod.fst := ((stored_grows hon).map Prod.fst).subset hx
    cases hr with
    | refused | unfound => exact absurd hx' List.not_mem_nil
    | short hc he hp hlen => exact ⟨hc, hin (Nat.le_of_lt hlen) hx'⟩
    | stored hc he hp hlen => exact ⟨hc, hin (Nat.le_of_eq hlen) hx'⟩
  · rintro ⟨hc, i, hi, rfl⟩
    have hr : Reception start stop info
        (bootPutuint32 putCode ++ (List.replicate info.nbytes.toNat 0 ++ [])) _ _ _ :=
      .stored hc rfl firstFound_putCode List.length_replicate
    refine ⟨_, _, _, _, hr.solo, ?_⟩
    rw [storedFrom_map_fst, List.length_replicate]
    exact List.mem_map_of_mem (List.mem_range'_1.mpr ⟨Nat.zero_le i, by omega⟩)

end Receiving

section Range

theorem stores_meets_iff (hcode : AnswersGetCode start stop info) :
    (∃ x, Stores start stop info x ∧ start ≤ x ∧ x < stop) ↔
      Meets (2 ^ 32) start.toNat stop.toNat info.baseAddr.toNat info.nbytes.toNat := by
  have hat (i : ℕ) : (info.baseAddr + BitVec.ofNat 32 i).toNat =
      (info.baseAddr.toNat + i) % 2 ^ 32 := by
    rw [BitVec.toNat_add, BitVec.toNat_ofNat, Nat.add_mod_mod]
  constructor
  · rintro ⟨x, hx, hlo, hhi⟩
    obtain ⟨-, i, hi, rfl⟩ := stores_iff.mp hx
    rw [BitVec.le_def, hat] at hlo
    rw [BitVec.lt_def, hat] at hhi
    exact ⟨i, hi, hlo, hhi⟩
  · rintro ⟨i, hi, hlo, hhi⟩
    refine ⟨_, stores_iff.mpr ⟨hcode, i, hi, rfl⟩, ?_⟩
    rw [BitVec.le_def, BitVec.lt_def, hat]
    exact ⟨hlo, hhi⟩

/-- The test is right about a program that does not wrap. A program that does must meet the
loader with both of its parts, or with none. -/
theorem not_collides_spares_iff (hrange : start < stop) :
    (¬ collides start stop info = true →
      ¬ Meets (2 ^ 32) start.toNat stop.toNat info.baseAddr.toNat info.nbytes.toNat) ↔
      info.baseAddr.toNat + info.nbytes.toNat < 2 ^ 32 ∨
        (info.baseAddr < stop ↔
          start.toNat + 2 ^ 32 < info.baseAddr.toNat + info.nbytes.toNat) := by
  have hb := info.baseAddr.isLt
  have hn := info.nbytes.isLt
  rw [not_imp_not, collides_iff]
  by_cases hwrap : info.baseAddr.toNat + info.nbytes.toNat < 2 ^ 32
  · rw [meets_iff_of_fit hrange (Nat.le_of_lt hwrap), Nat.mod_eq_of_lt hwrap]
    exact ⟨fun _ => .inl hwrap, fun _ h => h.2⟩
  · have hge := Nat.not_lt.mp hwrap
    have hmod : (info.baseAddr.toNat + info.nbytes.toNat) % 2 ^ 32 =
        info.baseAddr.toNat + info.nbytes.toNat - 2 ^ 32 := by
      rw [Nat.mod_eq_sub_mod hge, Nat.mod_eq_of_lt (by omega)]
    rw [meets_iff_of_wrap hrange (Nat.le_of_lt stop.isLt) hb (Nat.le_of_lt hn) hge, hmod,
      Nat.lt_sub_iff_add_lt, or_iff_right hwrap, BitVec.lt_def]
    constructor
    · intro h
      exact ⟨fun hbase => (h (.inl hbase)).1, fun hend => (h (.inr hend)).2⟩
    · rintro h (hbase | hend)
      · exact ⟨h.mp hbase, hbase⟩
      · exact ⟨hend, h.mpr hend⟩

/-- The loader stores nothing into its own range if the sum in its overlap test does not wrap;
otherwise exactly if the wrapped test happens to decide as the addresses do. -/
theorem getCode_spares_loader_iff (start stop : BitVec 32) (info : ProgInfo) :
    (AnswersGetCode start stop info →
      ∀ x, Stores start stop info x → ¬ (start ≤ x ∧ x < stop)) ↔
      stop ≤ start ∨ info.baseAddr.toNat + info.nbytes.toNat < 2 ^ 32 ∨
        (info.baseAddr < stop ↔
          start.toNat + 2 ^ 32 < info.baseAddr.toNat + info.nbytes.toNat) := by
  by_cases hrange : stop ≤ start
  · refine ⟨fun _ => .inl hrange, fun _ _ x _ hx => ?_⟩
    rw [BitVec.le_def] at hrange
    exact absurd (Nat.lt_of_le_of_lt hx.1 hx.2) (Nat.not_lt.mpr hrange)
  · rw [or_iff_right hrange, ← not_collides_spares_iff (BitVec.not_le.mp hrange)]
    constructor
    · intro h hc hmeets
      have hcode := answersGetCode_iff.mpr hc
      obtain ⟨x, hx, hin⟩ := (stores_meets_iff hcode).mpr hmeets
      exact h hcode x hx hin
    · intro h hcode x hx hin
      exact h (answersGetCode_iff.mp hcode) ((stores_meets_iff hcode).mp ⟨x, hx, hin⟩)

/-- A program in the last 64 KiB of the address space that goes on beyond its end. -/
theorem getCode_overwrites_loader :
    ¬ (AnswersGetCode 0x200000 0x201000 ⟨0xFFFF0000, 0x300000, 0⟩ →
      ∀ x, Stores 0x200000 0x201000 ⟨0xFFFF0000, 0x300000, 0⟩ x →
        ¬ ((0x200000 : BitVec 32) ≤ x ∧ x < 0x201000)) := by
  intro h
  have hcode : AnswersGetCode 0x200000 0x201000 ⟨0xFFFF0000, 0x300000, 0⟩ :=
    answersGetCode_iff.mpr (by decide)
  have hstores : Stores 0x200000 0x201000 ⟨0xFFFF0000, 0x300000, 0⟩ 0x200000 :=
    stores_iff.mpr ⟨hcode, 0x210000, by decide, by decide⟩
  exact h hcode _ hstores ⟨by decide, by decide⟩

end Range

end PiPervisor.Loader
