import PiPervisor.Printk.Numeral

/-! # The directives of a format string

A format string is a sequence of literal characters and directives, possibly
followed by a directive that the end of the string cuts off. The reference
output copies literals and unsupported directives and expands the others, with
the arguments taken from left to right.
-/
namespace PiPervisor.Printk
open Library.Positional

/-- The directives that print one argument. -/
inductive Conv where
  | b | u | c | x | p | d | s
  deriving DecidableEq, Repr

def Conv.letter : Conv → CChar
  | .b => ascii 'b'
  | .u => ascii 'u'
  | .c => ascii 'c'
  | .x => ascii 'x'
  | .p => ascii 'p'
  | .d => ascii 'd'
  | .s => ascii 's'

/-- The directives that take a width. -/
inductive PaddedConv where
  | x | d
  deriving DecidableEq, Repr

def PaddedConv.letter : PaddedConv → CChar
  | .x => ascii 'x'
  | .d => ascii 'd'

/-- A possibly empty run of digits. -/
abbrev Digits := {l : List CChar // ∀ c ∈ l, isDigit c = true}

def digitValue (c : CChar) : ℕ := c.toNat - (ascii '0').toNat

def Digits.value (run : Digits) : ℕ := read 10 (run.1.map digitValue)

/-- The usual notation of a 32-bit number. -/
def Digits.Canonical (run : Digits) : Prop :=
  Plain (run.1.map digitValue) ∧ run.value < 2 ^ 32

inductive Item where
  | literal (c : CChar) (h : c ≠ 0 ∧ c ≠ ascii '%')
  | conv (k : Conv)
  | percent
  | padded (run : Digits) (k : PaddedConv)
  | unsupported (c : CChar) (h : c ≠ 0 ∧ c ≠ ascii '%' ∧ c ≠ ascii '0' ∧ ∀ k : Conv, c ≠ k.letter)
  | unsupportedPadded (run : Digits) (c : CChar)
      (h : c ≠ 0 ∧ isDigit c = false ∧ ∀ k : PaddedConv, c ≠ k.letter)

/-- What the end of the string leaves of a directive. -/
inductive Tail where
  | none
  | percent
  | zero (run : Digits)

def Item.source : Item → List CChar
  | .literal c _ => [c]
  | .conv k => [ascii '%', k.letter]
  | .percent => [ascii '%', ascii '%']
  | .padded run k => ascii '%' :: ascii '0' :: run.1 ++ [k.letter]
  | .unsupported c _ => [ascii '%', c]
  | .unsupportedPadded run c _ => ascii '%' :: ascii '0' :: run.1 ++ [c]

def Tail.source : Tail → List CChar
  | .none => []
  | .percent => [ascii '%']
  | .zero run => ascii '%' :: ascii '0' :: run.1

/-- The format string made of these items. -/
def source (items : List Item) (tail : Tail) : List CChar :=
  items.flatMap Item.source ++ tail.source

def Item.arity : Item → ℕ
  | .conv _ | .padded _ _ => 1
  | _ => 0

def arity (items : List Item) : ℕ := (items.map Item.arity).sum

variable (strings : Word → List CChar)

def Conv.expand (a : Word) : Conv → List CChar
  | .b => text "0b" ++ numeral 2 a.toNat
  | .u => numeral 10 a.toNat
  | .c => [a.setWidth 8]
  | .x => numeral 16 a.toNat
  | .p => text "0x" ++ numeral 16 a.toNat
  | .d => signedNumeral 0 a.toInt
  | .s => if a = 0 then text "(null)" else strings a

def PaddedConv.expand (width : ℕ) (a : Word) : PaddedConv → List CChar
  | .x => padTo width (numeral 16 a.toNat)
  | .d => signedNumeral width a.toInt

def Item.expand (a : Word) : Item → List CChar
  | .literal c _ => [c]
  | .conv k => k.expand strings a
  | .percent => [ascii '%']
  | .padded run k => k.expand run.value a
  | .unsupported c _ => [ascii '%', c]
  | .unsupportedPadded run c _ => ascii '%' :: ascii '0' :: run.1 ++ [c]

/-- Expand the items in order, each with the next argument if it takes one. -/
def expandAll (out : Item → Word → List CChar) : List Item → List Word → List CChar
  | [], _ => []
  | i :: items, args => out i (args.headD 0) ++ expandAll out items (args.drop i.arity)

/-- The reference output of a format string that is not cut off. -/
def render (items : List Item) (args : List Word) : List CChar :=
  expandAll (fun i a => i.expand strings a) items args

end PiPervisor.Printk
