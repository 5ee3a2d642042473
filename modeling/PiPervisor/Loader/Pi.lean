import PiPervisor.Library.Channels
import PiPervisor.Loader.Protocol

/-! # The loader on the Pi

The loader asks for a program, receives its header, refuses it if it would overwrite
the loader, and otherwise stores the bytes that follow and branches to them.
-/
namespace PiPervisor.Loader
open Library.Channels

section Program

/-- What the host says about a program. -/
structure ProgInfo where
  baseAddr : BitVec 32
  nbytes : BitVec 32
  expectedCrc : BitVec 32
  deriving DecidableEq

def ProgInfo.bytes (info : ProgInfo) : List Byte :=
  bootPutuint32 info.baseAddr ++ (bootPutuint32 info.nbytes ++ bootPutuint32 info.expectedCrc)

/-- Three words in a row. -/
def progInfo (bytes : List Byte) : ProgInfo where
  baseAddr := bootGetuint32 (bytes.take 4)
  nbytes := bootGetuint32 ((bytes.drop 4).take 4)
  expectedCrc := bootGetuint32 (bytes.drop 8)

/-- Where the loader is. -/
inductive PiPc where
  | put (bytes : List Byte) (next : PiPc)
  | poll
  | waitForOpcode (expected window nbytes : BitVec 32) (next : PiPc)
  | header (got : List Byte)
  | load (info : ProgInfo) (i : ℕ)
  | finish (info : ProgInfo)
  | halted
  | rebooted
  | branched (addr : BitVec 32)
  deriving DecidableEq

/-- The loader, with the bytes it has stored and their addresses. -/
structure PiState where
  pc : PiPc
  stored : List (BitVec 32 × Byte)
  deriving DecidableEq

/-- The test of the loader that the program would collide with it. -/
def collides (start stop : BitVec 32) (info : ProgInfo) : Bool :=
  !(info.baseAddr + info.nbytes ≤ start || info.baseAddr ≥ stop)

/-- How the loader answers a header. -/
def answer (start stop : BitVec 32) (info : ProgInfo) : PiPc :=
  if collides start stop info then .put (bootPutuint32 badCodeAddr) .halted
  else .put (bootPutuint32 getCode) (.put (bootPutuint32 info.expectedCrc)
    (.waitForOpcode putCode 0 0 (.load info 0)))

def askForProgram : PiPc := .put (bootPutuint32 getProgInfo) .poll

/-- The next step of `main`; the loader occupies the addresses from `start` up to `stop`. -/
def PiState.act (start stop : BitVec 32) (s : PiState) : Act Byte PiState :=
  match s.pc with
  | .put [] next => .silent { s with pc := next }
  | .put (byte :: bytes) next => .put byte { s with pc := .put bytes next }
  | .poll => .look { s with pc := .waitForOpcode putProgInfo 0 0 (.header []) }
  | .waitForOpcode expected window nbytes next =>
    if window ≠ expected ∨ nbytes < 4 then
      .get fun byte =>
        { s with pc := .waitForOpcode expected (slideWindow window byte) (nbytes + 1) next }
    else .silent { s with pc := next }
  | .header got =>
    if got.length < 12 then .get fun byte => { s with pc := .header (got ++ [byte]) }
    else .silent { s with pc := answer start stop (progInfo got) }
  | .load info i =>
    if i < info.nbytes.toNat then
      .get fun byte =>
        { pc := .load info (i + 1)
          stored := s.stored ++ [(info.baseAddr + BitVec.ofNat 32 i, byte)] }
    else .silent { s with pc := .put (bootPutuint32 bootSuccess) (.finish info) }
  | .finish info =>
    .silent { s with pc := if info.baseAddr = 0 then .rebooted else .branched info.baseAddr }
  | .halted | .rebooted | .branched _ => .stop

section Moves
variable {start stop : BitVec 32} {s s' : PiState} {input input' output : List Byte}

/-- The steps of the loader, whatever they read and send. -/
inductive PiState.Moves (start stop : BitVec 32) : PiState → PiState → Prop
  | sent {next stored} : Moves start stop ⟨.put [] next, stored⟩ ⟨next, stored⟩
  | send {byte bytes next stored} :
      Moves start stop ⟨.put (byte :: bytes) next, stored⟩ ⟨.put bytes next, stored⟩
  | see {stored} :
      Moves start stop ⟨.poll, stored⟩ ⟨.waitForOpcode putProgInfo 0 0 (.header []), stored⟩
  | slide {expected window nbytes next stored} (byte : Byte)
      (h : window ≠ expected ∨ nbytes < 4) :
      Moves start stop ⟨.waitForOpcode expected window nbytes next, stored⟩
        ⟨.waitForOpcode expected (slideWindow window byte) (nbytes + 1) next, stored⟩
  | found {expected window nbytes next stored} (h : ¬ (window ≠ expected ∨ nbytes < 4)) :
      Moves start stop ⟨.waitForOpcode expected window nbytes next, stored⟩ ⟨next, stored⟩
  | receive {got stored} (byte : Byte) (h : got.length < 12) :
      Moves start stop ⟨.header got, stored⟩ ⟨.header (got ++ [byte]), stored⟩
  | answer {got stored} (h : ¬ got.length < 12) :
      Moves start stop ⟨.header got, stored⟩ ⟨answer start stop (progInfo got), stored⟩
  | store {info i stored} (byte : Byte) (h : i < info.nbytes.toNat) :
      Moves start stop ⟨.load info i, stored⟩
        ⟨.load info (i + 1), stored ++ [(info.baseAddr + BitVec.ofNat 32 i, byte)]⟩
  | report {info i stored} (h : ¬ i < info.nbytes.toNat) :
      Moves start stop ⟨.load info i, stored⟩
        ⟨.put (bootPutuint32 bootSuccess) (.finish info), stored⟩
  | leave {info stored} :
      Moves start stop ⟨.finish info, stored⟩
        ⟨if info.baseAddr = 0 then .rebooted else .branched info.baseAddr, stored⟩

theorem PiState.moves_of_step (h : (s.act start stop).step input = some (s', input', output)) :
    Moves start stop s s' := by
  obtain ⟨pc, stored⟩ := s
  rw [act] at h
  cases pc with
  | put bytes next =>
    cases bytes with
    | nil =>
      cases h
      exact .sent
    | cons byte bytes =>
      cases h
      exact .send
  | poll =>
    cases input with
    | nil => cases h
    | cons byte input =>
      cases h
      exact .see
  | waitForOpcode expected window nbytes next =>
    dsimp only at h
    split at h
    · rename_i hcond
      cases input with
      | nil => cases h
      | cons byte input =>
        cases h
        exact .slide byte hcond
    · rename_i hcond
      cases h
      exact .found hcond
  | header got =>
    dsimp only at h
    split at h
    · rename_i hmore
      cases input with
      | nil => cases h
      | cons byte input =>
        cases h
        exact .receive byte hmore
    · rename_i hdone
      cases h
      exact .answer hdone
  | load info i =>
    dsimp only at h
    split at h
    · rename_i hmore
      cases input with
      | nil => cases h
      | cons byte input =>
        cases h
        exact .store byte hmore
    · rename_i hdone
      cases h
      exact .report hdone
  | finish info =>
    cases h
    exact .leave
  | halted | rebooted | branched => cases h

end Moves

/-- The sum is that of 32-bit words. -/
theorem collides_iff {start stop : BitVec 32} {info : ProgInfo} : collides start stop info = true ↔
    start.toNat < (info.baseAddr.toNat + info.nbytes.toNat) % 2 ^ 32 ∧
      info.baseAddr.toNat < stop.toNat := by
  rw [collides, Bool.not_eq_true', Bool.or_eq_false_iff, decide_eq_false_iff_not,
    decide_eq_false_iff_not, ge_iff_le, BitVec.le_def, BitVec.le_def, BitVec.toNat_add, not_le,
    not_le]

theorem progInfo_bytes (info : ProgInfo) : progInfo info.bytes = info := by
  obtain ⟨a, n, c⟩ := info
  change ProgInfo.mk (bootGetuint32 (bootPutuint32 a)) (bootGetuint32 (bootPutuint32 n))
    (bootGetuint32 (bootPutuint32 c)) = _
  rw [bootGetuint32_bootPutuint32, bootGetuint32_bootPutuint32, bootGetuint32_bootPutuint32]

end Program

section Window
variable {expected : BitVec 32} {l : List Byte}

/-- The window after the bytes `l`. -/
def windowOf (l : List Byte) : BitVec 32 := l.foldl slideWindow 0

/-- The loader takes the last bytes of `l` for the opcode. It counts bytes in 32 bits. -/
def Found (expected : BitVec 32) (l : List Byte) : Prop :=
  windowOf l = expected ∧ ¬ BitVec.ofNat 32 l.length < 4

theorem ofNat_lt_four (n : ℕ) : BitVec.ofNat 32 n < 4 ↔ n % 2 ^ 32 < 4 := by
  rw [BitVec.lt_def, BitVec.toNat_ofNat]
  rfl

/-- Four bytes make a window. -/
theorem suffix_of_windowOf (hlen : 4 ≤ l.length) (hw : windowOf l = expected) :
    bootPutuint32 expected <:+ l := by
  have hsplit := List.take_append_drop (l.length - 4) l
  have hdrop : (l.drop (l.length - 4)).length = 4 := by
    rw [List.length_drop]
    omega
  rcases hd : l.drop (l.length - 4) with - | ⟨b0, - | ⟨b1, - | ⟨b2, - | ⟨b3, - | ⟨b4, bs⟩⟩⟩⟩⟩ <;>
    rw [hd] at hdrop <;> simp at hdrop
  rw [hd] at hsplit
  have hword : windowOf l = bootGetuint32 [b0, b1, b2, b3] := by
    rw [← hsplit, windowOf, List.foldl_append]
    exact slideWindow_four _ b0 b1 b2 b3
  rw [← hw, hword, bootPutuint32_bootGetuint32]
  exact ⟨_, hsplit⟩

theorem windowOf_append_bootPutuint32 (l : List Byte) (expected : BitVec 32) :
    windowOf (l ++ bootPutuint32 expected) = expected := by
  obtain ⟨b0, b1, b2, b3, he⟩ : ∃ b0 b1 b2 b3, bootPutuint32 expected = [b0, b1, b2, b3] :=
    ⟨_, _, _, _, bootPutuint32_eq expected⟩
  have hword := bootGetuint32_bootPutuint32 expected
  rw [he] at hword ⊢
  rw [windowOf, List.foldl_append]
  exact (slideWindow_four _ b0 b1 b2 b3).trans hword

/-- No end of the opcode is also a beginning of it. -/
def Unbordered (l : List Byte) : Prop := ∀ d, 0 < d → d < l.length → l.drop d ≠ l.take (l.length - d)

/-- The search ends with the last byte of `l`. -/
structure FirstFound (expected : BitVec 32) (l : List Byte) : Prop where
  found : Found expected l
  first : ∀ p, p <+: l → p ≠ l → ¬ Found expected p

/-- In junk without the opcode, followed by the opcode, it is not found too early. -/
theorem not_found_of_prefix {junk p : List Byte} (hborder : Unbordered (bootPutuint32 expected))
    (hjunk : ¬ bootPutuint32 expected <:+: junk) (hp : p <+: junk ++ bootPutuint32 expected)
    (hne : p ≠ junk ++ bootPutuint32 expected) : ¬ Found expected p := by
  rintro ⟨hw, hn⟩
  have hfour : 4 ≤ p.length := by
    by_contra hlt
    refine hn ((ofNat_lt_four _).mpr ?_)
    rw [Nat.mod_eq_of_lt (by omega)]
    omega
  obtain ⟨r, hr⟩ := suffix_of_windowOf hfour hw
  obtain ⟨q, hq⟩ := hp
  have hlen : p.length + q.length = junk.length + 4 := by
    rw [← List.length_append, hq, List.length_append, bootPutuint32_length]
  have hrlen : r.length + 4 = p.length := by
    rw [← hr, List.length_append, bootPutuint32_length]
  have hqpos : 0 < q.length := by
    refine List.length_pos_iff.mpr fun hnil => hne ?_
    rw [← hq, hnil, List.append_nil]
  by_cases hshort : p.length ≤ junk.length
  · apply hjunk
    have hpre : p <+: junk := List.prefix_of_prefix_length_le ⟨q, hq⟩ (List.prefix_append _ _) hshort
    exact (List.IsSuffix.isInfix ⟨r, hr⟩).trans hpre.isInfix
  · have hcut : p = junk ++ (bootPutuint32 expected).take (4 - q.length) := by
      have htake := congrArg (List.take p.length) hq
      rw [List.take_left', List.take_append, List.take_of_length_le (by omega)] at htake
      · rw [htake]
        congr 2
        omega
      · rfl
    rw [hcut] at hr
    have hleft : (r ++ bootPutuint32 expected).drop junk.length =
        (bootPutuint32 expected).drop q.length := by
      rw [List.drop_append, List.drop_eq_nil_of_le (by omega), List.nil_append]
      congr 1
      omega
    apply hborder q.length hqpos (by rw [bootPutuint32_length]; omega)
    rw [bootPutuint32_length, ← hleft, hr]
    exact List.drop_left

/-- The opcode is found behind junk, unless the count of the bytes has just begun anew. -/
theorem firstFound_append_bootPutuint32 (junk : List Byte)
    (hborder : Unbordered (bootPutuint32 expected)) (hjunk : ¬ bootPutuint32 expected <:+: junk)
    (hcount : 4 ≤ (junk.length + 4) % 2 ^ 32) :
    FirstFound expected (junk ++ bootPutuint32 expected) := by
  refine ⟨⟨windowOf_append_bootPutuint32 junk expected, fun hlt => ?_⟩,
    fun p hp hne => not_found_of_prefix hborder hjunk hp hne⟩
  rw [ofNat_lt_four, List.length_append, bootPutuint32_length] at hlt
  omega

theorem unbordered_putProgInfo : Unbordered (bootPutuint32 putProgInfo) := by
  intro d hpos hlt
  rw [bootPutuint32_length] at hlt
  interval_cases d <;> decide

theorem unbordered_putCode : Unbordered (bootPutuint32 putCode) := by
  intro d hpos hlt
  rw [bootPutuint32_length] at hlt
  interval_cases d <;> decide

theorem firstFound_putCode : FirstFound putCode (bootPutuint32 putCode) :=
  firstFound_append_bootPutuint32 [] unbordered_putCode (by decide) (by decide)

end Window

section Alone
variable {start stop : BitVec 32} {stored : List (BitVec 32 × Byte)} {info : ProgInfo}

theorem act_header {got : List Byte} (h : got.length < 12) :
    PiState.act start stop ⟨.header got, stored⟩ =
      .get fun byte => ⟨.header (got ++ [byte]), stored⟩ :=
  if_pos h

theorem act_waitForOpcode {expected window nbytes : BitVec 32}
    (h : window ≠ expected ∨ nbytes < 4) (next : PiPc) :
    PiState.act start stop ⟨.waitForOpcode expected window nbytes next, stored⟩ =
      .get fun byte =>
        ⟨.waitForOpcode expected (slideWindow window byte) (nbytes + 1) next, stored⟩ :=
  if_pos h

theorem solo_put (bytes input : List Byte) (next : PiPc) :
    Solo (PiState.act start stop) ⟨.put bytes next, stored⟩ input ⟨next, stored⟩ input bytes := by
  induction bytes with
  | nil => exact .silent rfl (.refl _ _)
  | cons byte bytes ih => exact .put rfl ih

theorem solo_header (got bytes input : List Byte) (hlen : got.length + bytes.length = 12) :
    Solo (PiState.act start stop) ⟨.header got, stored⟩ (bytes ++ input)
      ⟨answer start stop (progInfo (got ++ bytes)), stored⟩ input [] := by
  induction bytes generalizing got with
  | nil =>
    have hdone : ¬ got.length < 12 := by
      rw [List.length_nil] at hlen
      omega
    rw [List.append_nil]
    exact .silent (if_neg hdone) (.refl _ _)
  | cons byte bytes ih =>
    rw [List.length_cons] at hlen
    have hmore : got.length < 12 := by omega
    have hrest := ih (got ++ [byte]) (by rw [List.length_append, List.length_singleton]; omega)
    rw [List.append_assoc] at hrest
    exact .get (act_header hmore) hrest

theorem solo_accept (hc : ¬ collides start stop info = true) (input : List Byte) :
    Solo (PiState.act start stop) ⟨answer start stop info, stored⟩ input
      ⟨.waitForOpcode putCode 0 0 (.load info 0), stored⟩ input
      (bootPutuint32 getCode ++ bootPutuint32 info.expectedCrc) := by
  rw [answer, if_neg hc]
  exact (solo_put _ _ _).trans (solo_put _ _ _)

theorem solo_refuse (hc : collides start stop info = true) (input : List Byte) :
    Solo (PiState.act start stop) ⟨answer start stop info, stored⟩ input ⟨.halted, stored⟩ input
      (bootPutuint32 badCodeAddr) := by
  rw [answer, if_pos hc]
  exact solo_put _ _ _

/-- The loader goes on searching until it has found the opcode. -/
theorem solo_search (expected : BitVec 32) (next : PiPc) (l bytes input : List Byte)
    (hno : ∀ p, p <+: bytes → p ≠ bytes → ¬ Found expected (l ++ p)) :
    Solo (PiState.act start stop)
      ⟨.waitForOpcode expected (windowOf l) (BitVec.ofNat 32 l.length) next, stored⟩
      (bytes ++ input)
      ⟨.waitForOpcode expected (windowOf (l ++ bytes)) (BitVec.ofNat 32 (l ++ bytes).length) next,
        stored⟩ input [] := by
  induction bytes generalizing l with
  | nil =>
    rw [List.append_nil]
    exact .refl _ _
  | cons byte bytes ih =>
    have hcond : windowOf l ≠ expected ∨ BitVec.ofNat 32 l.length < 4 := by
      have hnot := hno [] (List.nil_prefix) (List.cons_ne_nil _ _).symm
      rw [List.append_nil, Found, not_and_or, not_not] at hnot
      exact hnot
    have hrest := ih (l ++ [byte]) fun p hp hne => by
      rw [List.append_assoc]
      exact hno (byte :: p) (List.cons_prefix_cons.mpr ⟨rfl, hp⟩)
        fun he => hne (List.cons.inj he).2
    have hwindow : windowOf (l ++ [byte]) = slideWindow (windowOf l) byte := by
      rw [windowOf, List.foldl_append]
      rfl
    have hcount : BitVec.ofNat 32 (l ++ [byte]).length = BitVec.ofNat 32 l.length + 1 := by
      rw [List.length_append, List.length_singleton, BitVec.ofNat_add]
      rfl
    rw [hwindow, hcount, List.append_assoc] at hrest
    exact .get (act_waitForOpcode hcond next) hrest

theorem solo_found {expected : BitVec 32} {l : List Byte} (hf : Found expected l) (next : PiPc)
    (input : List Byte) : Solo (PiState.act start stop)
      ⟨.waitForOpcode expected (windowOf l) (BitVec.ofNat 32 l.length) next, stored⟩ input
      ⟨next, stored⟩ input [] := by
  have hcond : ¬ (windowOf l ≠ expected ∨ BitVec.ofNat 32 l.length < 4) := by
    rw [not_or, not_not]
    exact hf
  exact .silent (if_neg hcond) (.refl _ _)

theorem solo_waitForOpcode {expected : BitVec 32} {l : List Byte} (hl : FirstFound expected l)
    (next : PiPc) (input : List Byte) : Solo (PiState.act start stop)
      ⟨.waitForOpcode expected 0 0 next, stored⟩ (l ++ input) ⟨next, stored⟩ input [] := by
  have hsearch : Solo (PiState.act start stop) ⟨.waitForOpcode expected 0 0 next, stored⟩ _ _ _ _ :=
    solo_search expected next [] l input hl.first
  exact hsearch.trans (solo_found hl.found next input)

/-- What is stored of a program from its `i`-th byte on. -/
def storedFrom (addr : BitVec 32) (i : ℕ) (code : List Byte) : List (BitVec 32 × Byte) :=
  (code.zipIdx i).map fun (byte, j) => (addr + BitVec.ofNat 32 j, byte)

theorem solo_load (info : ProgInfo) (i : ℕ) (code input : List Byte)
    (hlen : i + code.length ≤ info.nbytes.toNat) :
    Solo (PiState.act start stop) ⟨.load info i, stored⟩ (code ++ input)
      ⟨.load info (i + code.length), stored ++ storedFrom info.baseAddr i code⟩ input [] := by
  induction code generalizing i stored with
  | nil =>
    have hnil : stored ++ storedFrom info.baseAddr i [] = stored := List.append_nil stored
    rw [hnil, List.length_nil, Nat.add_zero]
    exact .refl _ _
  | cons byte code ih =>
    rw [List.length_cons] at hlen
    have hmore : i < info.nbytes.toNat := by omega
    have hrest : Solo (PiState.act start stop) ⟨.load info (i + 1),
        stored ++ [(info.baseAddr + BitVec.ofNat 32 i, byte)]⟩ _ _ _ _ := ih (i + 1) (by omega)
    rw [List.append_assoc, Nat.add_assoc, Nat.add_comm 1] at hrest
    exact .get (if_pos hmore) hrest

/-- The end of a program that has been stored. -/
theorem solo_finish (info : ProgInfo) (i : ℕ) (input : List Byte) (hi : info.nbytes.toNat ≤ i) :
    Solo (PiState.act start stop) ⟨.load info i, stored⟩ input
      ⟨if info.baseAddr = 0 then .rebooted else .branched info.baseAddr, stored⟩ input
      (bootPutuint32 bootSuccess) := by
  have hput : Solo (PiState.act start stop)
      ⟨.put (bootPutuint32 bootSuccess) (.finish info), stored⟩ _ _ _ _ := solo_put _ input _
  have hend : Solo (PiState.act start stop) ⟨.finish info, stored⟩ input
      ⟨if info.baseAddr = 0 then .rebooted else .branched info.baseAddr, stored⟩ input [] :=
    .silent rfl (.refl _ _)
  have hall := hput.trans hend
  rw [List.append_nil] at hall
  exact .silent (if_neg (Nat.not_lt.mpr hi)) hall

end Alone

end PiPervisor.Loader
