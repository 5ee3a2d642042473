import PiPervisor.Printk.Rendering

/-! # The arguments of a call

A call passes words and pointers to strings. A format that has only literals
and unpadded directives asks for arguments of certain kinds; if the call passes
these, every directive finds its own argument and nothing else is read.
-/
namespace PiPervisor.Printk

variable {strings : Word → List CChar}

/-- What a caller means by an argument. -/
inductive Arg where
  | word (value : Word)
  | text (chars : List CChar)

inductive ArgKind where
  | word
  | text
  deriving DecidableEq

def Arg.kind : Arg → ArgKind
  | .word _ => .word
  | .text _ => .text

/-- The word that passes an argument: itself, or where its string is. -/
def Arg.PassedAs (strings : Word → List CChar) : Arg → Word → Prop
  | .word value, w => w = value
  | .text chars, w => w ≠ 0 ∧ strings w = chars

/-- The kind of argument that a directive reads. -/
def Conv.kind : Conv → ArgKind
  | .s => .text
  | _ => .word

def Item.kinds : Item → List ArgKind
  | .conv k => [k.kind]
  | .padded _ _ => [.word]
  | _ => []

/-- The directive with this letter. -/
def convOf (c : CChar) : Option Conv :=
  [Conv.b, .u, .c, .x, .p, .d, .s].find? fun k => c = k.letter

/-- The items of a format of literals and unpadded directives. -/
def itemsOf : List CChar → Option (List Item)
  | [] => some []
  | [c] => if h : c ≠ 0 ∧ c ≠ ascii '%' then some [.literal c h] else none
  | c :: d :: fmt =>
    if h : c ≠ 0 ∧ c ≠ ascii '%' then (itemsOf (d :: fmt)).map (.literal c h :: ·)
    else if c = ascii '%' then
      if d = ascii '%' then (itemsOf fmt).map (.percent :: ·)
      else (convOf d).bind fun k => (itemsOf fmt).map (.conv k :: ·)
    else none

/-- The kinds of arguments that a format asks for. -/
def argKinds (fmt : List CChar) : Option (List ArgKind) :=
  (itemsOf fmt).map fun items => items.flatMap Item.kinds

/-- What a directive prints for an argument of its kind. -/
def Conv.printed : Conv → Arg → List CChar
  | .s, .text chars => chars
  | .s, .word _ => []
  | _, .text _ => []
  | k, .word w => k.expand (fun _ => []) w

/-- The text of a format with its arguments. -/
def formatted : List Item → List Arg → List CChar
  | .conv k :: items, a :: args => k.printed a ++ formatted items args
  | .literal c _ :: items, args => c :: formatted items args
  | .percent :: items, args => ascii '%' :: formatted items args
  | _, _ => []

theorem convOf_letter {c : CChar} {k : Conv} (h : convOf c = some k) : c = k.letter := by
  simpa using List.find?_some h

/-- Literals, `%%` and directives without a width. -/
def Item.Unpadded : Item → Prop
  | .literal _ _ | .percent | .conv _ => True
  | _ => False

theorem itemsOf_spec {fmt : List CChar} {items : List Item} (h : itemsOf fmt = some items) :
    fmt = source items .none ∧ ∀ i ∈ items, i.Unpadded := by
  have hcons {i : Item} {rest : List CChar} {l : List Item} (hi : i.Unpadded)
      (hl : rest = source l .none ∧ ∀ j ∈ l, j.Unpadded) :
      i.source ++ rest = source (i :: l) .none ∧ ∀ j ∈ i :: l, j.Unpadded := by
    refine ⟨?_, List.forall_mem_cons.mpr ⟨hi, hl.2⟩⟩
    rw [hl.1, source, source, List.flatMap_cons, List.append_assoc]
  induction fmt using itemsOf.induct generalizing items with
  | case1 =>
    cases h
    simp [source, Tail.source]
  | case2 c hc =>
    rw [itemsOf, dif_pos hc] at h
    cases h
    simp [source, Tail.source, Item.source, Item.Unpadded]
  | case3 c hc =>
    rw [itemsOf, dif_neg hc] at h
    cases h
  | case4 c d fmt hc ih =>
    rw [itemsOf, dif_pos hc] at h
    obtain ⟨l, hl, rfl⟩ := Option.map_eq_some_iff.mp h
    exact hcons (i := .literal c hc) trivial (ih hl)
  | case5 fmt hc ih =>
    rw [itemsOf, dif_neg hc, if_pos rfl, if_pos rfl] at h
    obtain ⟨l, hl, rfl⟩ := Option.map_eq_some_iff.mp h
    exact hcons (i := .percent) trivial (ih hl)
  | case6 d fmt hd hc ih =>
    rw [itemsOf, dif_neg hc, if_pos rfl, if_neg hd] at h
    obtain ⟨k, hk, h⟩ := Option.bind_eq_some_iff.mp h
    obtain ⟨l, hl, rfl⟩ := Option.map_eq_some_iff.mp h
    rw [convOf_letter hk]
    exact hcons (i := .conv k) trivial (ih hl)
  | case7 c d fmt hc hp =>
    rw [itemsOf, dif_neg hc, if_neg hp] at h
    cases h

/-- A directive prints the argument that the caller means. -/
theorem Conv.expand_passedAs {k : Conv} {a : Arg} {w : Word} (hk : a.kind = k.kind)
    (hw : a.PassedAs strings w) : k.expand strings w = k.printed a := by
  cases a with
  | word value =>
    obtain rfl : w = value := hw
    cases k with
    | s => cases hk
    | _ => rfl
  | text chars =>
    cases k with
    | s => rw [Conv.expand, if_neg hw.1, hw.2, Conv.printed]
    | _ => cases hk

theorem arity_eq_length_kinds (items : List Item) :
    arity items = (items.flatMap Item.kinds).length := by
  induction items with
  | nil => rfl
  | cons i items ih =>
    have hi : i.arity = i.kinds.length := by cases i <;> rfl
    rw [List.flatMap_cons, List.length_append, ← ih, ← hi]
    exact List.sum_cons

theorem expandAll_formatted {items : List Item} (hu : ∀ i ∈ items, i.Unpadded) {args : List Arg}
    {words : List Word} (hk : args.map Arg.kind = items.flatMap Item.kinds)
    (hw : List.Forall₂ (Arg.PassedAs strings) args words) :
    expandAll (fun i a => i.emit strings a) items words = formatted items args := by
  induction items generalizing args words with
  | nil => rfl
  | cons i items ih =>
    have hrest := fun j hj => hu j (List.mem_cons_of_mem _ hj)
    have hi := hu i List.mem_cons_self
    rw [expandAll]
    cases i with
    | literal c h => exact congrArg (c :: ·) ((ih hrest hk hw).trans (by cases args <;> rfl))
    | percent => exact congrArg (ascii '%' :: ·) ((ih hrest hk hw).trans (by cases args <;> rfl))
    | conv k =>
      cases hw with
      | nil => cases hk
      | cons ha hl =>
        obtain ⟨hkind, hkinds⟩ := List.cons.inj hk
        exact congrArg₂ (· ++ ·) (Conv.expand_passedAs hkind ha) (ih hrest hkinds hl)
    | padded => cases hi
    | unsupported => cases hi
    | unsupportedPadded => cases hi

/-- A call that passes arguments of the kinds its format asks for prints their text. -/
theorem vprintkWithPutc_formatted {fmt : List CChar} {items : List Item}
    (hf : itemsOf fmt = some items) {args : List Arg} {words : List Word}
    (hk : argKinds fmt = some (args.map Arg.kind))
    (hw : List.Forall₂ (Arg.PassedAs strings) args words) :
    vprintkWithPutc strings (fmt ++ [0]) words = .ok (formatted items args) := by
  obtain ⟨hsource, hu⟩ := itemsOf_spec hf
  rw [argKinds, hf] at hk
  have hk : args.map Arg.kind = items.flatMap Item.kinds := (Option.some.inj hk).symm
  have harity : arity items ≤ words.length := by
    rw [arity_eq_length_kinds, ← hk, List.length_map, hw.length_eq]
  rw [hsource, vprintkWithPutc_source strings items .none harity, expandAll_formatted hu hk hw]
  exact congrArg Except.ok (List.append_nil _)

example : argKinds (text "HSR EC: %d (%s)\n") = some [.word, .text] := by decide

end PiPervisor.Printk
