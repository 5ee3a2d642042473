import PiPervisor.Loader.Pi

/-! # Reception

What becomes of the bytes that arrive behind a header: the program is refused, or its
opcode does not come, or some of it is missing, or all of it is stored. The loader by
itself has no other way to go.
-/
namespace PiPervisor.Loader
open Library.Channels

theorem none_found_or_exists_firstFound (expected : BitVec 32) (l : List Byte) :
    (∀ p, p <+: l → ¬ Found expected p) ∨ ∃ p rest, l = p ++ rest ∧ FirstFound expected p := by
  induction l using List.reverseRecOn with
  | nil =>
    refine .inl fun p hp hf => ?_
    rw [List.prefix_nil.mp hp] at hf
    exact hf.2 (by decide)
  | append_singleton l byte ih =>
    rcases ih with hnone | ⟨p, rest, he, hp⟩
    · have hsplit (p : List Byte) (hp : p <+: l ++ [byte]) : p = l ++ [byte] ∨ p <+: l :=
        List.prefix_concat_iff.mp hp
      by_cases hf : Found expected (l ++ [byte])
      · refine .inr ⟨l ++ [byte], [], (List.append_nil _).symm, hf, fun p hp hne => ?_⟩
        exact hnone p ((hsplit p hp).resolve_left hne)
      · refine .inl fun p hp hfp => ?_
        rcases hsplit p hp with rfl | hp
        · exact hf hfp
        · exact hnone p hp hfp
    · exact .inr ⟨p, rest ++ [byte], by rw [he, List.append_assoc], hp⟩

section Ends
variable {start stop : BitVec 32} {info : ProgInfo} {received rest output : List Byte} {s : PiState}

/-- What the loader sends when it accepts a header. -/
def goAhead (info : ProgInfo) : List Byte := bootPutuint32 getCode ++ bootPutuint32 info.expectedCrc

/-- The last state of the loader, the bytes it leaves unread and those it has sent. -/
inductive Reception (start stop : BitVec 32) (info : ProgInfo) (received : List Byte) :
    PiState → List Byte → List Byte → Prop
  | refused (hc : collides start stop info = true) :
      Reception start stop info received ⟨.halted, []⟩ received (bootPutuint32 badCodeAddr)
  | unfound (hc : ¬ collides start stop info = true)
      (hnone : ∀ p, p <+: received → ¬ Found putCode p) :
      Reception start stop info received ⟨.waitForOpcode putCode (windowOf received)
        (BitVec.ofNat 32 received.length) (.load info 0), []⟩ [] (goAhead info)
  | short (hc : ¬ collides start stop info = true) {p code : List Byte}
      (he : received = p ++ code) (hp : FirstFound putCode p)
      (hlen : code.length < info.nbytes.toNat) :
      Reception start stop info received
        ⟨.load info code.length, storedFrom info.baseAddr 0 code⟩ [] (goAhead info)
  | stored (hc : ¬ collides start stop info = true) {p code rest : List Byte}
      (he : received = p ++ (code ++ rest)) (hp : FirstFound putCode p)
      (hlen : code.length = info.nbytes.toNat) :
      Reception start stop info received
        ⟨if info.baseAddr = 0 then .rebooted else .branched info.baseAddr,
          storedFrom info.baseAddr 0 code⟩ rest (goAhead info ++ bootPutuint32 bootSuccess)

theorem exists_reception (start stop : BitVec 32) (info : ProgInfo) (received : List Byte) :
    ∃ s rest output, Reception start stop info received s rest output := by
  by_cases hc : collides start stop info = true
  · exact ⟨_, _, _, .refused hc⟩
  · rcases none_found_or_exists_firstFound putCode received with hnone | ⟨p, code, he, hp⟩
    · exact ⟨_, _, _, .unfound hc hnone⟩
    · by_cases hlen : code.length < info.nbytes.toNat
      · exact ⟨_, _, _, .short hc he hp hlen⟩
      · rw [← List.take_append_drop info.nbytes.toNat code] at he
        exact ⟨_, _, _, .stored hc he hp (List.length_take_of_le (Nat.not_lt.mp hlen))⟩

theorem solo_answer (start stop : BitVec 32) (info : ProgInfo) (received : List Byte) :
    Solo (PiState.act start stop) ⟨.header [], []⟩ (info.bytes ++ received)
      ⟨answer start stop info, []⟩ received [] := by
  have hheader : Solo (PiState.act start stop) ⟨.header [], []⟩ (info.bytes ++ received) _ _ _ :=
    solo_header [] info.bytes received rfl
  rw [List.nil_append, progInfo_bytes] at hheader
  exact hheader

theorem solo_stores (hc : ¬ collides start stop info = true) {p code : List Byte}
    (hp : FirstFound putCode p) (hlen : code.length ≤ info.nbytes.toNat) (rest : List Byte) :
    Solo (PiState.act start stop) ⟨.header [], []⟩ (info.bytes ++ (p ++ (code ++ rest)))
      ⟨.load info code.length, storedFrom info.baseAddr 0 code⟩ rest (goAhead info) := by
  have hload : Solo (PiState.act start stop) ⟨.load info 0, []⟩ (code ++ rest) _ _ _ :=
    solo_load info 0 code rest (by omega)
  have hall := (solo_answer start stop info (p ++ (code ++ rest))).trans
    ((solo_accept hc _).trans ((solo_waitForOpcode hp _ _).trans hload))
  rw [List.append_nil, Nat.zero_add] at hall
  exact hall

/-- The loader gets there. -/
theorem Reception.solo (h : Reception start stop info received s rest output) :
    Solo (PiState.act start stop) ⟨.header [], []⟩ (info.bytes ++ received) s rest output := by
  cases h with
  | refused hc => exact (solo_answer start stop info received).trans (solo_refuse hc received)
  | unfound hc hnone =>
    have hsearch : Solo (PiState.act start stop)
        ⟨.waitForOpcode putCode 0 0 (.load info 0), []⟩ (received ++ []) _ _ _ :=
      solo_search putCode (.load info 0) [] received [] fun p hp _ => hnone p hp
    rw [List.append_nil] at hsearch
    exact (solo_answer start stop info received).trans ((solo_accept hc _).trans hsearch)
  | short hc he hp hlen =>
    have hall := solo_stores hc hp (Nat.le_of_lt hlen) []
    rw [List.append_nil, ← he] at hall
    exact hall
  | @stored hc p code rest he hp hlen =>
    rw [he]
    exact (solo_stores hc hp (Nat.le_of_eq hlen) rest).trans
      (solo_finish info code.length rest (Nat.le_of_eq hlen.symm))

/-- It is stuck there. -/
theorem Reception.stuck (h : Reception start stop info received s rest output) :
    (s.act start stop).step rest = none := by
  cases h with
  | refused => rfl
  | unfound hc hnone =>
    have hcond : windowOf received ≠ putCode ∨ BitVec.ofNat 32 received.length < 4 := by
      have hnot := hnone received (List.prefix_refl _)
      rw [Found, not_and_or, not_not] at hnot
      exact hnot
    have hact : PiState.act start stop ⟨.waitForOpcode putCode (windowOf received)
        (BitVec.ofNat 32 received.length) (.load info 0), []⟩ = _ := act_waitForOpcode hcond _
    exact congrArg (·.step []) hact
  | @short hc p code he hp hlen =>
    have hact : PiState.act start stop
        ⟨.load info code.length, storedFrom info.baseAddr 0 code⟩ = .get _ := if_pos hlen
    exact congrArg (·.step []) hact
  | stored => split_ifs <;> rfl

/-- Whatever the loader does is on the way there. -/
theorem Reception.of_solo (h : Reception start stop info received s rest output) {s' : PiState}
    {rest' output' : List Byte}
    (h' : Solo (PiState.act start stop) ⟨.header [], []⟩ (info.bytes ++ received) s' rest' output') :
    ∃ out, Solo (PiState.act start stop) s' rest' s rest out ∧ output = output' ++ out :=
  h.solo.of_stuck h' h.stuck

end Ends

end PiPervisor.Loader
