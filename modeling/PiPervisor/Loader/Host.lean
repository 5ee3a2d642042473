import PiPervisor.Loader.Pi

/-! # The installer on the host

The installer waits until the loader asks for a program, sends the header, skips the
repeated requests that are still on their way, and sends the program.
-/
namespace PiPervisor.Loader
open Library.Channels

section Program

/-- Where the installer is. It reads opcodes in two loops: until it is asked for a program, and
while it is still asked for one. -/
inductive HostPc where
  | put (bytes : List Byte) (next : HostPc)
  | getOp (drains : Bool) (got : List Byte)
  | skip
  | getCrc (got : List Byte)
  | getResult (got : List Byte)
  | success
  | failure
  deriving DecidableEq

variable (addr : BitVec 32) (buf : List Byte)

/-- What the installer says about the program. -/
def programHeader : ProgInfo := ⟨addr, BitVec.ofNat 32 buf.length, crc32 buf⟩

/-- After an opcode; only strings that the Pi prints are ignored by both loops. -/
def HostPc.afterOp (drains : Bool) (op : BitVec 32) : HostPc :=
  if op = printString then
    if op = bootError then .failure else .getOp drains []
  else if drains then
    if op = getProgInfo then .getOp true []
    else if op ≠ getCode then .failure
    else .getCrc []
  else if op ≠ getProgInfo then .skip
  else .put (bootPutuint32 putProgInfo ++ (programHeader addr buf).bytes) (.getOp true [])

/-- The next step of `put_code`. -/
def HostPc.act : HostPc → Act Byte HostPc
  | put [] next => .silent next
  | put (byte :: bytes) next => .put byte (put bytes next)
  | getOp drains got =>
    if got.length < 4 then .get fun byte => getOp drains (got ++ [byte])
    else .silent (afterOp addr buf drains (bootGetuint32 got))
  | skip => .get fun _ => getOp false []
  | getCrc got =>
    if got.length < 4 then .get fun byte => getCrc (got ++ [byte])
    else .silent (if bootGetuint32 got ≠ crc32 buf then failure
      else put (bootPutuint32 putCode ++ buf) (getResult []))
  | getResult got =>
    if got.length < 4 then .get fun byte => getResult (got ++ [byte])
    else .silent (if bootGetuint32 got ≠ bootSuccess then failure else success)
  | success | failure => .stop

end Program

section Alone
variable {addr : BitVec 32} {buf : List Byte}

theorem solo_host_put (bytes input : List Byte) (next : HostPc) :
    Solo (HostPc.act addr buf) (.put bytes next) input next input bytes := by
  induction bytes with
  | nil => exact .silent rfl (.refl _ _)
  | cons byte bytes ih => exact .put rfl ih

/-- A word that is read byte by byte. -/
theorem solo_host_word (state : List Byte → HostPc) (after : BitVec 32 → HostPc)
    (hact : ∀ got, HostPc.act addr buf (state got) =
      if got.length < 4 then .get fun byte => state (got ++ [byte])
      else .silent (after (bootGetuint32 got))) (u : BitVec 32) (input : List Byte) :
    Solo (HostPc.act addr buf) (state []) (bootPutuint32 u ++ input) (after u) input [] := by
  have hword := bootGetuint32_bootPutuint32 u
  obtain ⟨b0, b1, b2, b3, he⟩ : ∃ b0 b1 b2 b3, bootPutuint32 u = [b0, b1, b2, b3] :=
    ⟨_, _, _, _, bootPutuint32_eq u⟩
  rw [he] at hword ⊢
  refine .get (hact []) (.get (hact [b0]) (.get (hact [b0, b1]) (.get (hact [b0, b1, b2]) ?_)))
  refine .silent (hact [b0, b1, b2, b3]) ?_
  rw [hword]
  exact .refl _ _

theorem solo_host_op (drains : Bool) (op : BitVec 32) (input : List Byte) :
    Solo (HostPc.act addr buf) (.getOp drains []) (bootPutuint32 op ++ input)
      (HostPc.afterOp addr buf drains op) input [] :=
  solo_host_word (.getOp drains) (HostPc.afterOp addr buf drains) (fun _ => rfl) op input

/-- The first request is answered with the header. -/
theorem solo_host_header (input : List Byte) :
    Solo (HostPc.act addr buf) (.getOp false []) (bootPutuint32 getProgInfo ++ input)
      (.getOp true []) input (bootPutuint32 putProgInfo ++ (programHeader addr buf).bytes) :=
  (solo_host_op false getProgInfo input).trans (solo_host_put _ _ _)

/-- The others are skipped. -/
theorem solo_host_drain (k : ℕ) (input : List Byte) :
    Solo (HostPc.act addr buf) (.getOp true [])
      ((List.replicate k (bootPutuint32 getProgInfo)).flatten ++ input) (.getOp true []) input [] := by
  induction k with
  | zero => exact .refl _ _
  | succ k ih =>
    rw [List.replicate_succ, List.flatten_cons, List.append_assoc]
    exact (solo_host_op true getProgInfo _).trans ih

theorem solo_host_code (input : List Byte) :
    Solo (HostPc.act addr buf) (.getOp true [])
      (bootPutuint32 getCode ++ (bootPutuint32 (crc32 buf) ++ input)) (.getResult []) input
      (bootPutuint32 putCode ++ buf) := by
  let after (word : BitVec 32) : HostPc :=
    if word ≠ crc32 buf then .failure else .put (bootPutuint32 putCode ++ buf) (.getResult [])
  have hafter : after (crc32 buf) = .put (bootPutuint32 putCode ++ buf) (.getResult []) :=
    if_neg (not_not.mpr rfl)
  have hcrc : Solo (HostPc.act addr buf) _ _ _ _ _ :=
    solo_host_word .getCrc after (fun _ => rfl) (crc32 buf) input
  rw [hafter] at hcrc
  exact (solo_host_op true getCode _).trans (hcrc.trans (solo_host_put _ _ _))

theorem solo_host_refused (input : List Byte) :
    Solo (HostPc.act addr buf) (.getOp true []) (bootPutuint32 badCodeAddr ++ input) .failure input
      [] :=
  solo_host_op true badCodeAddr input

theorem solo_host_success (input : List Byte) :
    Solo (HostPc.act addr buf) (.getResult []) (bootPutuint32 bootSuccess ++ input) .success input
      [] := by
  let after (word : BitVec 32) : HostPc := if word ≠ bootSuccess then .failure else .success
  have hword : Solo (HostPc.act addr buf) _ _ _ _ _ :=
    solo_host_word .getResult after (fun _ => rfl) bootSuccess input
  exact hword

end Alone

end PiPervisor.Loader
