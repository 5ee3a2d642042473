import PiPervisor.Printk.Rendering
import Mathlib.Data.List.TakeWhile

/-! # Whole format strings

Every string without a zero byte splits into items and a tail. The loop stays
inside the string unless the tail is a `%0` directive, and it prints the
reference output unless an unsupported width is not a usual notation.
-/
namespace PiPervisor.Printk
open Library.Positional

variable (strings : Word → List CChar)

theorem source_cons (i : Item) (items : List Item) (tail : Tail) :
    source (i :: items) tail = i.source ++ source items tail := by
  rw [source, List.flatMap_cons, List.append_assoc, source]

/-- A directive that starts with `%0`, and what follows it. -/
theorem exists_zero_item {fmt : List CChar} (h0 : 0 ∉ fmt) :
    (∃ run : Digits, fmt = run.1) ∨
      ∃ (i : Item) (rest : List CChar), ascii '%' :: ascii '0' :: fmt = i.source ++ rest := by
  have hsplit := List.takeWhile_append_dropWhile (p := isDigit) (l := fmt)
  have hrun : ∀ c ∈ fmt.takeWhile isDigit, isDigit c = true := fun c hc =>
    List.mem_takeWhile_imp hc
  cases hrest : fmt.dropWhile isDigit with
  | nil =>
    rw [hrest, List.append_nil] at hsplit
    exact .inl ⟨⟨fmt.takeWhile isDigit, hrun⟩, hsplit.symm⟩
  | cons e rest =>
    have he : isDigit e = false := by
      have := List.head?_dropWhile_not isDigit fmt
      rw [hrest] at this
      simpa using this
    have hfmt : fmt = fmt.takeWhile isDigit ++ e :: rest := by rw [← hrest, hsplit]
    have he0 : e ≠ 0 := by
      rintro rfl
      exact h0 (hfmt ▸ List.mem_append_right _ List.mem_cons_self)
    refine .inr ?_
    by_cases hk : ∃ k : PaddedConv, e = k.letter
    · obtain ⟨k, rfl⟩ := hk
      refine ⟨.padded ⟨_, hrun⟩ k, rest, ?_⟩
      rw [Item.source, List.append_assoc]
      exact congrArg (fun l => ascii '%' :: ascii '0' :: l) hfmt
    · refine ⟨.unsupportedPadded ⟨_, hrun⟩ e ⟨he0, he, not_exists.mp hk⟩, rest, ?_⟩
      rw [Item.source, List.append_assoc]
      exact congrArg (fun l => ascii '%' :: ascii '0' :: l) hfmt

/-- A string is cut off, or starts with an item. -/
theorem exists_item {s : List CChar} (h0 : 0 ∉ s) :
    (∃ tail : Tail, s = tail.source) ∨ ∃ (i : Item) (rest : List CChar), s = i.source ++ rest := by
  match s with
  | [] => exact .inl ⟨.none, rfl⟩
  | [c] =>
    by_cases hc : c = ascii '%'
    · exact .inl ⟨.percent, by rw [hc]; rfl⟩
    · exact .inr ⟨.literal c ⟨fun e => h0 (e ▸ List.mem_cons_self), hc⟩, [], rfl⟩
  | c :: d :: rest =>
    have hc0 : c ≠ 0 := fun e => h0 (e ▸ List.mem_cons_self)
    have hd0 : d ≠ 0 := fun e => h0 (e ▸ List.mem_cons_of_mem _ List.mem_cons_self)
    by_cases hc : c = ascii '%'
    · subst hc
      by_cases hz : d = ascii '0'
      · subst hz
        have hrest : 0 ∉ rest := fun h => h0 (List.mem_cons_of_mem _ (List.mem_cons_of_mem _ h))
        rcases exists_zero_item hrest with ⟨run, hrun⟩ | hitem
        · exact .inl ⟨.zero run, by rw [hrun]; rfl⟩
        · exact .inr hitem
      · refine .inr ?_
        by_cases hp : d = ascii '%'
        · exact ⟨.percent, rest, by rw [hp]; rfl⟩
        · by_cases hk : ∃ k : Conv, d = k.letter
          · obtain ⟨k, rfl⟩ := hk
            exact ⟨.conv k, rest, rfl⟩
          · exact ⟨.unsupported d ⟨hd0, hp, hz, not_exists.mp hk⟩, rest, rfl⟩
    · exact .inr ⟨.literal c ⟨hc0, hc⟩, d :: rest, rfl⟩

/-- Every string without a zero byte is the source of some items and a tail. -/
theorem exists_source {s : List CChar} (h0 : 0 ∉ s) : ∃ items tail, s = source items tail := by
  induction hn : s.length using Nat.strong_induction_on generalizing s with
  | _ n ih =>
    rcases exists_item h0 with ⟨tail, rfl⟩ | ⟨i, rest, rfl⟩
    · exact ⟨[], tail, rfl⟩
    · have hpos : 0 < i.source.length := by cases i <;> simp [Item.source]
      have hlt : rest.length < n := by
        rw [← hn, List.length_append]
        omega
      obtain ⟨items, tail, rfl⟩ := ih rest.length hlt
        (fun h => h0 (List.mem_append_right _ h)) rfl
      exact ⟨i :: items, tail, (source_cons i items tail).symm⟩

/-- The string ends inside a `%0` directive. -/
def EndsInZero (s : List CChar) : Prop := ∃ items run, s = source items (.zero run)

theorem endsInZero_source_iff (items : List Item) (tail : Tail) :
    EndsInZero (source items tail) ↔ ∃ run, tail = .zero run := by
  constructor
  · rintro ⟨items', run, hs⟩
    -- both readings determine the run of the loop, given arguments enough for either
    have hlen : arity items ≤ (List.replicate (arity items + arity items') (0 : Word)).length := by
      simp
    have hargs := vprintkWithPutc_source (fun _ => []) items tail hlen
    rw [hs, vprintkWithPutc_source (fun _ => []) items' (.zero run) (by simp)] at hargs
    cases tail with
    | none => cases hargs
    | percent => cases hargs
    | zero run' => exact ⟨run', rfl⟩
  · rintro ⟨run, rfl⟩
    exact ⟨items, run, rfl⟩

/-- The formatter reads past the end of its format exactly if the format ends within a `%0`
directive. -/
theorem vprintk_stays_in_string (s : List CChar) (h0 : 0 ∉ s) :
    (∃ items tail, s = source items tail) ∧
      ∀ items tail, s = source items tail → ∀ args : List Word, arity items ≤ args.length →
        ((∃ out, vprintkWithPutc strings (s ++ [0]) args = .ok out) ↔ ¬ EndsInZero s) ∧
          (EndsInZero s → vprintkWithPutc strings (s ++ [0]) args = .error .pastTerminator) := by
  refine ⟨exists_source h0, ?_⟩
  rintro items tail rfl args hargs
  rw [endsInZero_source_iff, vprintkWithPutc_source strings items tail hargs]
  cases tail with
  | none => simp
  | percent => simp
  | zero run => simp

/-- A string with one directive, and its argument. -/
theorem vprintk_stays_in_string_decimal :
    (∃ out, vprintkWithPutc (fun _ => []) (text "%d" ++ [0]) [5] = .ok out) ↔
      ¬ EndsInZero (text "%d") :=
  ((vprintk_stays_in_string (fun _ => []) (text "%d") (by decide)).2 [.conv .d] .none rfl [5]
    (by decide)).1

/-- A format that ends after the digits of a width. -/
theorem vprintk_leaves_string :
    0 ∉ text "%05" ∧ ∀ args, vprintkWithPutc (fun _ => []) (text "%05" ++ [0]) args =
      .error .pastTerminator :=
  ⟨by decide, fun _ => rfl⟩

theorem digitValue_digitChar : ∀ d < 10, digitValue (digitChar d) = d := by decide

theorem isDigit_digitChar : ∀ d < 10, isDigit (digitChar d) = true := by decide

theorem digitChar_digitValue :
    ∀ c : CChar, isDigit c = true → digitValue c < 10 ∧ digitChar (digitValue c) = c := by
  decide

/-- A run of digits is printed as it is exactly if it is a usual notation. -/
theorem numeral_eq_run_iff (n : ℕ) (run : Digits) :
    numeral 10 n = run.1 ↔ Plain (run.1.map digitValue) ∧ run.value = n := by
  have hlt : ∀ d ∈ run.1.map digitValue, d < 10 := by
    intro d hd
    obtain ⟨c, hc, rfl⟩ := List.mem_map.mp hd
    exact (digitChar_digitValue c (run.2 c hc)).1
  have hrun : (run.1.map digitValue).map digitChar = run.1 := by
    rw [List.map_map]
    refine (List.map_congr_left fun c hc => ?_).trans (List.map_id _)
    exact (digitChar_digitValue c (run.2 c hc)).2
  have hback (l : List ℕ) (hl : ∀ d ∈ l, d < 10) : (l.map digitChar).map digitValue = l := by
    rw [List.map_map]
    exact (List.map_congr_left fun d hd => digitValue_digitChar d (hl d hd)).trans (List.map_id _)
  rw [Digits.value, ← forward_eq_iff (by decide) hlt]
  constructor
  · intro h
    rw [← h, numeral, hback _ fun d hd => forward_lt (by decide) hd]
  · intro h
    rw [numeral, h, hrun]

theorem numeral_eq_run_iff_canonical (run : Digits) :
    numeral 10 (run.value % 2 ^ 32) = run.1 ↔ run.Canonical := by
  rw [numeral_eq_run_iff, Digits.Canonical]
  apply and_congr_right
  intro _
  omega

/-- Two runs of digits with something else behind them are compared digit by digit. -/
theorem append_cons_inj {a b x y : List CChar} {e : CChar} (ha : ∀ c ∈ a, isDigit c = true)
    (hb : ∀ c ∈ b, isDigit c = true) (he : isDigit e = false) :
    a ++ e :: x = b ++ e :: y ↔ a = b ∧ x = y := by
  constructor
  · intro h
    have htake (l z : List CChar) (hl : ∀ c ∈ l, isDigit c = true) :
        (l ++ e :: z).takeWhile isDigit = l := by
      rw [List.takeWhile_append_of_pos hl, List.takeWhile_cons_of_neg (by simp [he]),
        List.append_nil]
    have hab : a = b := by rw [← htake a x ha, h, htake b y hb]
    subst hab
    exact ⟨rfl, (List.cons.inj (List.append_cancel_left h)).2⟩
  · rintro ⟨rfl, rfl⟩
    rfl

/-- The width of a directive that takes one stays in the range of `int`. -/
def Item.WidthFits : Item → Prop
  | .padded run _ => run.value < 2 ^ 31
  | _ => True

/-- Only the width of an unsupported directive is not copied but printed anew. -/
def Item.Verbatim : Item → Prop
  | .unsupportedPadded run _ _ => run.Canonical
  | _ => True

theorem Item.emit_append_eq_iff {i : Item} (hw : i.WidthFits) (a : Word) (x y : List CChar) :
    i.emit strings a ++ x = i.expand strings a ++ y ↔ i.Verbatim ∧ x = y := by
  cases i with
  | padded run k =>
    have hmod : run.value % 2 ^ 32 = run.value := by
      have : run.value < 2 ^ 31 := hw
      omega
    simp only [Item.emit, Item.expand, hmod, Item.Verbatim, true_and, List.append_cancel_left_eq]
  | unsupportedPadded run c h =>
    have hdigits : ∀ c ∈ numeral 10 (run.value % 2 ^ 32), isDigit c = true := by
      intro c hc
      obtain ⟨d, hd, rfl⟩ := List.mem_map.mp hc
      exact isDigit_digitChar d (forward_lt (by decide) hd)
    simp only [Item.emit, Item.expand, List.append_assoc, List.cons_append, List.nil_append,
      List.cons.injEq, true_and]
    rw [append_cons_inj hdigits run.2 h.2.1, numeral_eq_run_iff_canonical]
    rfl
  | _ => simp [Item.emit, Item.expand, Item.Verbatim]

/-- The printed text is the reference output exactly if every width that is printed anew comes
out as it was written. -/
theorem expandAll_emit_eq_iff {items : List Item} (hw : ∀ i ∈ items, i.WidthFits)
    (args : List Word) (t : List CChar) :
    expandAll (fun i a => i.emit strings a) items args ++ t = render strings items args ++ t ↔
      ∀ i ∈ items, i.Verbatim := by
  induction items generalizing args with
  | nil => simp [render, expandAll]
  | cons i items ih =>
    have hrest := ih (fun j hj => hw j (List.mem_cons_of_mem _ hj)) (args.drop i.arity)
    rw [render, expandAll, expandAll, List.append_assoc, List.append_assoc,
      Item.emit_append_eq_iff strings (hw i List.mem_cons_self), List.forall_mem_cons]
    exact and_congr_right fun _ => hrest

/-- The formatter prints the reference output exactly if no unsupported directive has a width that
is printed otherwise than it is written. -/
theorem vprintk_renders (s : List CChar) (h0 : 0 ∉ s) (hend : ¬ EndsInZero s) :
    (∃ items tail, s = source items tail) ∧
      ∀ items tail, s = source items tail → ∀ args : List Word, arity items ≤ args.length →
        (∀ i ∈ items, i.WidthFits) →
          (vprintkWithPutc strings (s ++ [0]) args = .ok (render strings items args ++ tail.source) ↔
            ∀ i ∈ items, i.Verbatim) := by
  refine ⟨exists_source h0, ?_⟩
  rintro items tail rfl args hargs hw
  have hout : vprintkWithPutc strings (source items tail ++ [0]) args =
      .ok (expandAll (fun i a => i.emit strings a) items args ++ tail.source) := by
    rw [vprintkWithPutc_source strings items tail hargs]
    cases tail with
    | none => rfl
    | percent => rfl
    | zero run => exact absurd ⟨items, run, rfl⟩ hend
  rw [hout, Except.ok.injEq, expandAll_emit_eq_iff strings hw]

/-- A padded argument. -/
theorem vprintk_renders_padded :
    let items := [.padded ⟨text "8", by decide⟩ .x]
    vprintkWithPutc (fun _ => []) (text "%08x" ++ [0]) [0xbeef] =
      .ok (render (fun _ => []) items [0xbeef] ++ Tail.none.source) := by
  intro items
  have hend : ¬ EndsInZero (text "%08x") := fun h => by
    obtain ⟨run, hrun⟩ := (endsInZero_source_iff items .none).mp h
    cases hrun
  refine ((vprintk_renders (fun _ => []) (text "%08x") (by decide) hend).2 items .none rfl [0xbeef]
    (by decide) ?_).mpr ?_
  · rintro i hi
    rw [List.mem_singleton.mp hi]
    change (8 : ℕ) < 2 ^ 31
    decide
  · rintro i hi
    rw [List.mem_singleton.mp hi]
    trivial

/-- An unsupported directive whose digits begin with a zero. -/
theorem vprintk_rewrites_width :
    let items := [.unsupportedPadded ⟨text "07", by decide⟩ (ascii 'z')
      ⟨by decide, by decide, fun k => by cases k <;> decide⟩]
    text "%007z" = source items .none ∧ 0 ∉ text "%007z" ∧ ¬ EndsInZero (text "%007z") ∧
      vprintkWithPutc (fun _ => []) (text "%007z" ++ [0]) [] = .ok (text "%07z") ∧
      vprintkWithPutc (fun _ => []) (text "%007z" ++ [0]) [] ≠
        .ok (render (fun _ => []) items [] ++ Tail.none.source) := by
  intro items
  have hout : vprintkWithPutc (fun _ => []) (text "%007z" ++ [0]) [] = .ok (text "%07z") := rfl
  refine ⟨rfl, by decide, fun h => ?_, hout, fun h => ?_⟩
  · obtain ⟨run, hrun⟩ := (endsInZero_source_iff items .none).mp h
    cases hrun
  · rw [hout] at h
    exact absurd (Except.ok.inj h) (by decide)

end PiPervisor.Printk
