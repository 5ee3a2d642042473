import PiPervisor.Printk.Grammar

/-! # What the cursor loop prints

One round of the loop reads one item of the format string and nothing of what
follows it. A format string that is cut off within a `%0` directive leads the
cursor past the terminator.
-/
namespace PiPervisor.Printk
open Library.Positional

variable (strings : Word → List CChar)

/-- What the code prints for an item: the width is a word, and an unsupported width is printed anew. -/
def Item.emit (a : Word) : Item → List CChar
  | .padded run k => k.expand (run.value % 2 ^ 32) a
  | .unsupportedPadded run c _ =>
    ascii '%' :: ascii '0' :: numeral 10 (run.value % 2 ^ 32) ++ [c]
  | i => i.expand strings a

theorem directive_conv (k : Conv) (fmt : List CChar) (a : Word) (args : List Word) :
    directive strings (k.letter :: fmt) (a :: args) =
      .ok (k.expand strings a, k.letter :: fmt, args) := by
  have hpad (l : List CChar) : padTo (0 : Word).toNat l = l := padTo_zero l
  cases k with
  | b =>
    change (outputNum 2 a 0 >>= fun out => _) = _
    rw [outputNum_two, hpad]
    rfl
  | u =>
    change (outputNum 10 a 0 >>= fun out => _) = _
    rw [outputNum_ten, hpad]
    rfl
  | c => rfl
  | x =>
    change (outputNum 16 a 0 >>= fun out => _) = _
    rw [outputNum_sixteen, hpad]
    rfl
  | p =>
    change (outputNum 16 a 0 >>= fun out => _) = _
    rw [outputNum_sixteen, hpad]
    rfl
  | d =>
    change (outputSigned a 0 >>= fun out => _) = _
    rw [outputSigned_eq]
    rfl
  | s => rfl

/-- The digit loop reads a run of digits up to the next character. -/
theorem scanDigits_run (run : List CChar) (hrun : ∀ c ∈ run, isDigit c = true) (w : ℕ) {e : CChar}
    (he : isDigit e = false) (fmt : List CChar) :
    scanDigits (BitVec.ofNat 32 w) (run ++ e :: fmt) =
      .ok (BitVec.ofNat 32 ((run.map digitValue).foldl (fun w d => w * 10 + d) w), e :: fmt) := by
  induction run generalizing w with
  | nil => rw [List.nil_append, scanDigits, if_neg (by rw [he]; exact nofun)]; rfl
  | cons c run ih =>
    have hc := hrun c List.mem_cons_self
    have hdigit : 48 ≤ c.toNat := by
      rw [isDigit, Bool.and_eq_true, decide_eq_true_eq, BitVec.le_def] at hc
      exact hc.1
    have hstep : BitVec.ofNat 32 w * 10 + (c.setWidth 32 - (ascii '0').setWidth 32) =
        BitVec.ofNat 32 (w * 10 + digitValue c) := by
      have hlt := c.isLt
      have hzero : (ascii '0').setWidth 32 = BitVec.ofNat 32 48 := rfl
      apply BitVec.eq_of_toNat_eq
      rw [hzero, BitVec.toNat_add, BitVec.toNat_mul, BitVec.toNat_sub, BitVec.toNat_setWidth,
        BitVec.toNat_ofNat, BitVec.toNat_ofNat, BitVec.toNat_ofNat]
      change (w % 2 ^ 32 * 10 % 2 ^ 32 + _) % 2 ^ 32 = (w * 10 + (c.toNat - 48)) % 2 ^ 32
      omega
    rw [List.cons_append, scanDigits, if_pos hc, hstep,
      ih (fun c hc => hrun c (List.mem_cons_of_mem _ hc)), List.map_cons, List.foldl_cons]

theorem scanDigits_digits (run : Digits) {e : CChar} (he : isDigit e = false)
    (fmt : List CChar) :
    scanDigits 0 (run.1 ++ e :: fmt) = .ok (BitVec.ofNat 32 run.value, e :: fmt) :=
  scanDigits_run run.1 run.2 0 he fmt

theorem PaddedConv.not_isDigit (k : PaddedConv) : isDigit k.letter = false := by
  cases k <;> decide

theorem directive_padded (run : Digits) (k : PaddedConv) (fmt : List CChar) (a : Word)
    (args : List Word) :
    directive strings (ascii '0' :: run.1 ++ k.letter :: fmt) (a :: args) =
      .ok (k.expand (run.value % 2 ^ 32) a, k.letter :: fmt, args) := by
  change (scanDigits 0 (run.1 ++ k.letter :: fmt) >>= fun p => _) = _
  rw [scanDigits_digits run k.not_isDigit]
  cases k with
  | x =>
    change (outputNum 16 a (BitVec.ofNat 32 run.value) >>= fun out => _) = _
    rw [outputNum_sixteen, BitVec.toNat_ofNat]
    rfl
  | d =>
    change (outputSigned a (BitVec.ofNat 32 run.value) >>= fun out => _) = _
    rw [outputSigned_eq, BitVec.toNat_ofNat]
    rfl

/-- The switch at `%0` with digits, if neither `x` nor `d` follows them. -/
theorem directive_unsupportedPadded (run : Digits) {e : CChar} (hd : isDigit e = false)
    (hk : ∀ k : PaddedConv, e ≠ k.letter) (fmt : List CChar) (args : List Word) :
    directive strings (ascii '0' :: run.1 ++ e :: fmt) args =
      .ok (ascii '%' :: ascii '0' :: numeral 10 (run.value % 2 ^ 32) ++ if e ≠ 0 then [e] else [],
        e :: fmt, args) := by
  have hpad (l : List CChar) : padTo (0 : Word).toNat l = l := padTo_zero l
  change (scanDigits 0 (run.1 ++ e :: fmt) >>= fun p => _) = _
  rw [scanDigits_digits run hd]
  have hx : e ≠ ascii 'x' := hk .x
  have hd : e ≠ ascii 'd' := hk .d
  change (if e = ascii 'x' then _ else if e = ascii 'd' then _ else _) = _
  rw [if_neg hx, if_neg hd]
  change (outputNum 10 (BitVec.ofNat 32 run.value) 0 >>= fun out => _) = _
  rw [outputNum_ten, BitVec.toNat_ofNat, hpad]
  rfl

theorem directive_unsupported {c : CChar} (h1 : c ≠ ascii '%') (h2 : c ≠ ascii '0')
    (hk : ∀ k : Conv, c ≠ k.letter) (fmt : List CChar) (args : List Word) :
    directive strings (c :: fmt) args = .ok ([ascii '%', c], c :: fmt, args) := by
  have hb : c ≠ ascii 'b' := hk .b
  have hu : c ≠ ascii 'u' := hk .u
  have hc : c ≠ ascii 'c' := hk .c
  have hx : c ≠ ascii 'x' := hk .x
  have hp : c ≠ ascii 'p' := hk .p
  have hd : c ≠ ascii 'd' := hk .d
  have hs : c ≠ ascii 's' := hk .s
  change (if c = ascii 'b' then _ else if c = ascii 'u' then _ else if c = ascii 'c' then _ else
    if c = ascii 'x' then _ else if c = ascii 'p' then _ else if c = ascii 'd' then _ else
    if c = ascii '0' then _ else if c = ascii 's' then _ else if c = ascii '%' then _ else _) = _
  rw [if_neg hb, if_neg hu, if_neg hc, if_neg hx, if_neg hp, if_neg hd, if_neg h2, if_neg hs,
    if_neg h1]
  rfl

theorem vprintkLoop_literal {c : CChar} (h : c ≠ 0 ∧ c ≠ ascii '%') (rounds : ℕ)
    (fmt : List CChar) (args : List Word) :
    vprintkLoop strings (rounds + 1) (c :: fmt) args =
      (vprintkLoop strings rounds fmt args).map (c :: ·) := by
  change (if c = 0 then _ else if c ≠ ascii '%' then _ else _) = _
  rw [if_neg h.1, if_pos h.2]
  change (vprintkLoop strings rounds fmt args >>= fun rest => _) = _
  cases vprintkLoop strings rounds fmt args <;> rfl

theorem vprintkLoop_directive {c : CChar} (hc : c ≠ 0) {fmt fmt' : List CChar}
    {args args' : List Word} {e : CChar} {out : List CChar}
    (hdir : directive strings (c :: fmt) args = .ok (out, e :: fmt', args')) (rounds : ℕ) :
    vprintkLoop strings (rounds + 1) (ascii '%' :: c :: fmt) args =
      (vprintkLoop strings rounds fmt' args').map (out ++ ·) := by
  change (if c = 0 then _ else directive strings (c :: fmt) args >>= fun p => _) = _
  rw [if_neg hc, hdir]
  change (vprintkLoop strings rounds fmt' args' >>= fun rest => _) = _
  cases vprintkLoop strings rounds fmt' args' <;> rfl

/-- One round prints one item and steps past it. -/
theorem vprintkLoop_item (i : Item) (rounds : ℕ) (fmt : List CChar) {args : List Word}
    (hargs : i.arity ≤ args.length) :
    vprintkLoop strings (rounds + 1) (i.source ++ fmt) args =
      (vprintkLoop strings rounds fmt (args.drop i.arity)).map
        (i.emit strings (args.headD 0) ++ ·) := by
  cases i with
  | literal c h => exact vprintkLoop_literal strings h rounds fmt args
  | conv k =>
    obtain ⟨a, args, rfl⟩ := List.exists_cons_of_length_pos (Nat.lt_of_succ_le hargs)
    have hk : k.letter ≠ 0 := by cases k <;> decide
    exact vprintkLoop_directive strings hk (directive_conv strings k fmt a args) rounds
  | percent => exact vprintkLoop_directive strings (c := ascii '%') (by decide) rfl rounds
  | padded run k =>
    obtain ⟨a, args, rfl⟩ := List.exists_cons_of_length_pos (Nat.lt_of_succ_le hargs)
    have hdir := directive_padded strings run k fmt a args
    rw [Item.source, List.append_assoc]
    exact vprintkLoop_directive strings (c := ascii '0') (by decide) hdir rounds
  | unsupported c h =>
    have hdir := directive_unsupported strings h.2.1 h.2.2.1 h.2.2.2 fmt args
    exact vprintkLoop_directive strings h.1 hdir rounds
  | unsupportedPadded run c h =>
    have hdir := directive_unsupportedPadded strings run h.2.1 h.2.2 fmt args
    rw [if_pos h.1] at hdir
    rw [Item.source, List.append_assoc]
    exact vprintkLoop_directive strings (c := ascii '0') (by decide) hdir rounds

theorem vprintkLoop_items (items : List Item) (rounds : ℕ) (fmt : List CChar) {args : List Word}
    (hargs : arity items ≤ args.length) :
    vprintkLoop strings (items.length + rounds) (items.flatMap Item.source ++ fmt) args =
      (vprintkLoop strings rounds fmt (args.drop (arity items))).map
        (expandAll (fun i a => i.emit strings a) items args ++ ·) := by
  induction items generalizing args with
  | nil =>
    rw [List.length_nil, Nat.zero_add]
    change vprintkLoop strings rounds fmt args = (vprintkLoop strings rounds fmt args).map _
    cases vprintkLoop strings rounds fmt args <;> rfl
  | cons i items ih =>
    have hsum : arity (i :: items) = i.arity + arity items := List.sum_cons
    have hrest : arity items ≤ (args.drop i.arity).length := by
      rw [List.length_drop]
      omega
    have hlen : (i :: items).length + rounds = items.length + rounds + 1 := by
      rw [List.length_cons]
      omega
    rw [hlen, List.flatMap_cons, List.append_assoc, vprintkLoop_item strings i _ _ (by omega),
      ih hrest, List.drop_drop, ← hsum]
    cases vprintkLoop strings rounds fmt (args.drop (arity (i :: items))) with
    | error f => rfl
    | ok out => exact congrArg Except.ok (List.append_assoc _ _ _).symm

/-- At the terminator the loop ends, unless a directive steps over it. -/
theorem vprintkLoop_tail (tail : Tail) (rounds : ℕ) (args : List Word) :
    vprintkLoop strings (rounds + 2) (tail.source ++ [0]) args =
      match tail with
      | .zero _ => .error .pastTerminator
      | _ => .ok tail.source := by
  cases tail with
  | none => rfl
  | percent => rfl
  | zero run =>
    have hdir := directive_unsupportedPadded strings run (e := 0) (by decide)
      (fun k => by cases k <;> decide) [] args
    exact vprintkLoop_directive strings (c := ascii '0') (by decide) hdir (rounds + 1)

theorem length_le_length_source (items : List Item) (tail : Tail) :
    items.length ≤ (source items tail).length := by
  have hitem (i : Item) : 1 ≤ i.source.length := by cases i <;> simp [Item.source]
  have hsum : items.length ≤ (items.flatMap Item.source).length := by
    induction items with
    | nil => exact le_rfl
    | cons i items ih =>
      have := hitem i
      rw [List.flatMap_cons, List.length_append, List.length_cons]
      omega
  rw [source, List.length_append]
  omega

/-- The output of a format string that is split into its items, if there are arguments enough. -/
theorem vprintkWithPutc_source (items : List Item) (tail : Tail) {args : List Word}
    (hargs : arity items ≤ args.length) :
    vprintkWithPutc strings (source items tail ++ [0]) args =
      match tail with
      | .zero _ => .error .pastTerminator
      | _ => .ok (expandAll (fun i a => i.emit strings a) items args ++ tail.source) := by
  obtain ⟨rounds, hr⟩ : ∃ rounds, (source items tail ++ [0]).length + 1 =
      items.length + (rounds + 2) := by
    have := length_le_length_source items tail
    refine ⟨(source items tail).length - items.length, ?_⟩
    rw [List.length_append, List.length_singleton]
    omega
  rw [vprintkWithPutc, hr, source, List.append_assoc, vprintkLoop_items strings items _ _ hargs,
    vprintkLoop_tail]
  cases tail <;> rfl

end PiPervisor.Printk
