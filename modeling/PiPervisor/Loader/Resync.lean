import PiPervisor.Loader.Host

/-! # How the installer falls into step with the loader

The installer reads words from wherever it opens the line, four bytes at a time, and
drops one byte more when the word says nothing to it. A request has no border: no word
that begins in the garbage and ends in a request is taken for one. Whatever such a word
leaves of the request is garbage again, and less of it than there was.
-/
namespace PiPervisor.Loader
open Library.Channels

/-- Requests for a program, one after the other. -/
def requests (k : ℕ) : List Byte := (List.replicate k (bootPutuint32 getProgInfo)).flatten

theorem requests_succ (k : ℕ) : requests (k + 1) = bootPutuint32 getProgInfo ++ requests k := by
  rw [requests, List.replicate_succ, List.flatten_cons]
  rfl

theorem bootPutuint32_getProgInfo : bootPutuint32 getProgInfo = [0x22, 0x22, 0x11, 0x11] := by
  decide

theorem bootPutuint32_printString : bootPutuint32 printString = [0xEE, 0xEE, 0xDD, 0xDD] := by
  decide

theorem bytes_of_bootGetuint32 {b0 b1 b2 b3 : Byte} {op : BitVec 32}
    (h : bootGetuint32 [b0, b1, b2, b3] = op) : [b0, b1, b2, b3] = bootPutuint32 op := by
  rw [← h, bootPutuint32_bootGetuint32]

section Loop
variable (addr : BitVec 32) (buf : List Byte)

/-- The first loop, from `input` to `input'`, goes on reading. -/
def Skips (input input' : List Byte) : Prop :=
  Solo (HostPc.act addr buf) (.getOp false []) input (.getOp false []) input' []

/-- After the garbage the first loop ends with the one of the next `most` requests. -/
def Synchronises (garbage : List Byte) (most : ℕ) : Prop :=
  ∀ K rest, most ≤ K → ∃ k, 1 ≤ k ∧ k ≤ most ∧
    Solo (HostPc.act addr buf) (.getOp false []) (garbage ++ requests K ++ rest)
      (.put (bootPutuint32 putProgInfo ++ (programHeader addr buf).bytes) (.getOp true []))
      (requests (K - k) ++ rest) []

variable {addr buf}

theorem solo_host_bytes (b0 b1 b2 b3 : Byte) (input : List Byte) :
    Solo (HostPc.act addr buf) (.getOp false []) ([b0, b1, b2, b3] ++ input)
      (HostPc.afterOp addr buf false (bootGetuint32 [b0, b1, b2, b3])) input [] := by
  have h : Solo (HostPc.act addr buf) _ _ _ _ _ :=
    solo_host_op false (bootGetuint32 [b0, b1, b2, b3]) input
  rw [bootPutuint32_bootGetuint32] at h
  exact h

/-- A string of the Pi is dropped. -/
theorem skips_printString {b0 b1 b2 b3 : Byte} (hop : bootGetuint32 [b0, b1, b2, b3] = printString)
    (input : List Byte) : Skips addr buf ([b0, b1, b2, b3] ++ input) input := by
  have h : Solo (HostPc.act addr buf) _ _ _ _ _ := solo_host_bytes b0 b1 b2 b3 input
  rw [hop] at h
  exact h

/-- Of any other word that is no request, one byte more is dropped. -/
theorem skips_other {b0 b1 b2 b3 : Byte} (hprint : bootGetuint32 [b0, b1, b2, b3] ≠ printString)
    (hreq : bootGetuint32 [b0, b1, b2, b3] ≠ getProgInfo) (b4 : Byte) (input : List Byte) :
    Skips addr buf ([b0, b1, b2, b3] ++ b4 :: input) input := by
  have h : Solo (HostPc.act addr buf) _ _ _ _ _ := solo_host_bytes b0 b1 b2 b3 (b4 :: input)
  rw [HostPc.afterOp, if_neg hprint, if_neg Bool.false_ne_true, if_pos hreq] at h
  exact h.trans (.get rfl (.refl _ _))

theorem synchronises_nil : Synchronises addr buf [] 1 := by
  intro K rest hK
  obtain ⟨K, rfl⟩ : ∃ K', K = K' + 1 := ⟨K - 1, by omega⟩
  refine ⟨1, le_rfl, le_rfl, ?_⟩
  rw [requests_succ, List.nil_append, List.append_assoc]
  exact solo_host_op false getProgInfo _

theorem Synchronises.mono {g : List Byte} {m m' : ℕ} (h : Synchronises addr buf g m)
    (hm : m ≤ m') : Synchronises addr buf g m' := by
  intro K rest hK
  obtain ⟨k, hk, hkm, hsolo⟩ := h K rest (by omega)
  exact ⟨k, hk, by omega, hsolo⟩

/-- A step of the loop within the garbage. -/
theorem Synchronises.skip {g g' : List Byte} {m : ℕ} (h : Synchronises addr buf g' m)
    (hskip : ∀ input, Skips addr buf (g ++ input) (g' ++ input)) : Synchronises addr buf g m := by
  intro K rest hK
  obtain ⟨k, hk, hkm, hsolo⟩ := h K rest hK
  refine ⟨k, hk, hkm, ?_⟩
  rw [List.append_assoc] at hsolo ⊢
  exact (hskip _).trans hsolo

/-- A step of the loop that reaches into the first request: its end becomes garbage. -/
theorem Synchronises.straddle {g g' : List Byte} {m : ℕ} (h : Synchronises addr buf g' m)
    (hskip : ∀ input, Skips addr buf (g ++ bootPutuint32 getProgInfo ++ input) (g' ++ input)) :
    Synchronises addr buf g (m + 1) := by
  intro K rest hK
  obtain ⟨K, rfl⟩ : ∃ K', K = K' + 1 := ⟨K - 1, by omega⟩
  obtain ⟨k, hk, hkm, hsolo⟩ := h K rest (by omega)
  refine ⟨k + 1, by omega, by omega, ?_⟩
  rw [requests_succ, ← List.append_assoc, List.append_assoc, Nat.add_sub_add_right]
  rw [List.append_assoc] at hsolo
  exact (hskip _).trans hsolo

/-- A word with another last byte, or another third one, is no request; and one that ends in a byte
of a request is no string. -/
theorem skips_straddling (b0 b1 b2 b3 : Byte) (hlast : b3 ∈ [0x22, 0x11])
    (hreq : b2 ≠ 0x11 ∨ b3 ≠ 0x11) (b4 : Byte) (input : List Byte) :
    Skips addr buf ([b0, b1, b2, b3] ++ b4 :: input) input := by
  apply skips_other
  · intro h
    have hbytes := bytes_of_bootGetuint32 h
    simp only [bootPutuint32_printString, List.cons.injEq] at hbytes
    obtain ⟨-, -, -, rfl, -⟩ := hbytes
    exact absurd hlast (by decide)
  · intro h
    have hbytes := bytes_of_bootGetuint32 h
    simp only [bootPutuint32_getProgInfo, List.cons.injEq] at hbytes
    obtain ⟨-, -, rfl, rfl, -⟩ := hbytes
    rcases hreq with hne | hne <;> exact hne rfl

theorem synchronises_one (b0 : Byte) : Synchronises addr buf [b0] 2 := by
  apply synchronises_nil.straddle
  intro input
  rw [bootPutuint32_getProgInfo]
  exact skips_straddling b0 0x22 0x22 0x11 (by decide) (.inl (by decide)) 0x11 input

theorem synchronises_two (b0 b1 : Byte) : Synchronises addr buf [b0, b1] 3 := by
  apply (synchronises_one 0x11).straddle
  intro input
  rw [bootPutuint32_getProgInfo]
  exact skips_straddling b0 b1 0x22 0x22 (by decide) (.inl (by decide)) 0x11 (0x11 :: input)

theorem synchronises_three (b0 b1 b2 : Byte) : Synchronises addr buf [b0, b1, b2] 4 := by
  apply (synchronises_two 0x11 0x11).straddle
  intro input
  rw [bootPutuint32_getProgInfo]
  exact skips_straddling b0 b1 b2 0x22 (by decide) (.inr (by decide)) 0x22
    (0x11 :: 0x11 :: input)

theorem synchronises_five : ∀ g : List Byte, ¬ bootPutuint32 getProgInfo <:+: g →
    Synchronises addr buf g 5
  | [], _ => synchronises_nil.mono (by omega)
  | [b0], _ => (synchronises_one b0).mono (by omega)
  | [b0, b1], _ => (synchronises_two b0 b1).mono (by omega)
  | [b0, b1, b2], _ => (synchronises_three b0 b1 b2).mono (by omega)
  | b0 :: b1 :: b2 :: b3 :: g, hg => by
    have hreq : bootGetuint32 [b0, b1, b2, b3] ≠ getProgInfo := by
      intro h
      apply hg
      rw [← bytes_of_bootGetuint32 h]
      exact (List.prefix_append [b0, b1, b2, b3] g).isInfix
    have hrest {g' : List Byte} (hsuffix : g' <:+ g) : ¬ bootPutuint32 getProgInfo <:+: g' := by
      intro h
      exact hg (h.trans (hsuffix.trans (List.suffix_append [b0, b1, b2, b3] g)).isInfix)
    by_cases hprint : bootGetuint32 [b0, b1, b2, b3] = printString
    · exact (synchronises_five g (hrest List.suffix_rfl)).skip (skips_printString hprint <| g ++ ·)
    · cases g with
      | nil =>
        -- the byte that is dropped is the first of a request
        apply (synchronises_three 0x22 0x11 0x11).straddle
        intro input
        rw [bootPutuint32_getProgInfo]
        exact skips_other hprint hreq 0x22 (0x22 :: 0x11 :: 0x11 :: input)
      | cons b4 g =>
        exact (synchronises_five g (hrest (List.suffix_cons b4 g))).skip
          (skips_other hprint hreq b4 <| g ++ ·)
  termination_by g => g.length

end Loop

/-- Whatever the installer reads before the requests, it answers one of the first five of them. -/
theorem host_resynchronises (addr : BitVec 32) (buf garbage rest : List Byte) (K : ℕ)
    (hgarbage : ¬ bootPutuint32 getProgInfo <:+: garbage) (hK : 5 ≤ K) :
    ∃ k, 1 ≤ k ∧ k ≤ 5 ∧
      Solo (HostPc.act addr buf) (.getOp false [])
        (garbage ++ (List.replicate K (bootPutuint32 getProgInfo)).flatten ++ rest)
        (.put (bootPutuint32 putProgInfo ++ (programHeader addr buf).bytes) (.getOp true []))
        ((List.replicate (K - k) (bootPutuint32 getProgInfo)).flatten ++ rest) [] :=
  synchronises_five garbage hgarbage K rest hK

/-- A string and the beginning of a request before the requests. -/
theorem host_resynchronises_partial : ∃ k, 1 ≤ k ∧ k ≤ 5 ∧
    Solo (HostPc.act 0x8000 [0x7f]) (.getOp false [])
      ([0xEE, 0xEE, 0xDD, 0xDD, 0x22, 0x22, 0x11] ++
        (List.replicate 9 (bootPutuint32 getProgInfo)).flatten ++ [0x66])
      (.put (bootPutuint32 putProgInfo ++ (programHeader 0x8000 [0x7f]).bytes) (.getOp true []))
      ((List.replicate (9 - k) (bootPutuint32 getProgInfo)).flatten ++ [0x66]) [] :=
  host_resynchronises 0x8000 [0x7f] _ [0x66] 9 (by decide) (by decide)

end PiPervisor.Loader
