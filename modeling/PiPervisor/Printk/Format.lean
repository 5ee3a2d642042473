import Mathlib.Data.Nat.Notation
import Mathlib.Tactic.Common

/-! # Formatted printing

A pointer into the format string is the part of the string object from there
on, the terminator included; the object ends there, and reading further is a
fault. Every argument is a 32-bit word, and `strings` gives the characters of
the string at an address. The functions return the characters they hand to
`putc`, in order; the return value of `vprintk_with_putc` is always 0.
-/
namespace PiPervisor.Printk

/-- `char`, an unsigned byte on the target. -/
abbrev CChar := BitVec 8

abbrev Word := BitVec 32

def ascii (c : Char) : CChar := BitVec.ofNat 8 c.toNat

def text (s : String) : List CChar := s.toList.map ascii

def base2Chars : List CChar := text "01"
def base10Chars : List CChar := text "0123456789"
def base16Chars : List CChar := text "0123456789abcdef"

/-- Size of the buffer `num`. -/
def numSize : ℕ := 33

inductive Fault where
  | pastTerminator
  | noArgument
  | bufferOverflow
  | unfinished
  deriving DecidableEq, Repr

/-- The digits in the order in which they are stored, last digit first, with `room` left. -/
def storeDigits (chars : List CChar) (base : Word) : ℕ → Word → Except Fault (List CChar)
  | 0, _ => .error .bufferOverflow
  | room + 1, n => do
    let digit := chars.getD (n % base).toNat 0
    if n / base ≠ 0 then
      let digits ← storeDigits chars base room (n / base)
      return digit :: digits
    else return [digit]

/-- The zeros put before `len` digits. -/
def padZeros (len : ℕ) : ℕ → List CChar
  | 0 => []
  | padding + 1 => if padding + 1 > len then ascii '0' :: padZeros len padding else []

def baseChars (base : Word) : Option (List CChar) :=
  if base = 2 then some base2Chars
  else if base = 10 then some base10Chars
  else if base = 16 then some base16Chars
  else none

def outputNum (base n padding : Word) : Except Fault (List CChar) :=
  match baseChars base with
  | none => .ok [ascii '?']
  | some chars => do
    let num ← storeDigits chars base numSize n
    return padZeros num.length padding.toNat ++ num.reverse

def outputSigned (n padding : Word) : Except Fault (List CChar) :=
  if n.slt 0 then do
    let out ← outputNum 10 (0 - n) (if padding > 0 then padding - 1 else padding)
    return ascii '-' :: out
  else outputNum 10 n padding

variable (strings : Word → List CChar)

def outputString (s : Word) : List CChar := if s = 0 then text "(null)" else strings s

/-- `*fmt` -/
def peek : List CChar → Except Fault CChar
  | [] => .error .pastTerminator
  | c :: _ => .ok c

def vaArg : List Word → Except Fault (Word × List Word)
  | [] => .error .noArgument
  | a :: args => .ok (a, args)

def isDigit (c : CChar) : Bool := ascii '0' ≤ c && c ≤ ascii '9'

/-- The digit loop of a width; a width that leaves the range of `int` wraps. -/
def scanDigits (padding : Word) : List CChar → Except Fault (Word × List CChar)
  | [] => .error .pastTerminator
  | c :: fmt =>
    if isDigit c then scanDigits (padding * 10 + (c.setWidth 32 - (ascii '0').setWidth 32)) fmt
    else .ok (padding, c :: fmt)

/-- The switch on `*fmt`, up to its `break`. -/
def directive (fmt : List CChar) (args : List Word) :
    Except Fault (List CChar × List CChar × List Word) := do
  let c ← peek fmt
  if c = ascii 'b' then
    let (n, args) ← vaArg args
    let out ← outputNum 2 n 0
    return (ascii '0' :: ascii 'b' :: out, fmt, args)
  else if c = ascii 'u' then
    let (n, args) ← vaArg args
    let out ← outputNum 10 n 0
    return (out, fmt, args)
  else if c = ascii 'c' then
    let (n, args) ← vaArg args
    return ([n.setWidth 8], fmt, args)
  else if c = ascii 'x' then
    let (n, args) ← vaArg args
    let out ← outputNum 16 n 0
    return (out, fmt, args)
  else if c = ascii 'p' then
    let (n, args) ← vaArg args
    let out ← outputNum 16 n 0
    return (ascii '0' :: ascii 'x' :: out, fmt, args)
  else if c = ascii 'd' then
    let (n, args) ← vaArg args
    let out ← outputSigned n 0
    return (out, fmt, args)
  else if c = ascii '0' then
    let (padding, fmt) ← scanDigits 0 fmt.tail
    let c ← peek fmt
    if c = ascii 'x' then
      let (n, args) ← vaArg args
      let out ← outputNum 16 n padding
      return (out, fmt, args)
    else if c = ascii 'd' then
      let (n, args) ← vaArg args
      let out ← outputSigned n padding
      return (out, fmt, args)
    else
      let out ← outputNum 10 padding 0
      return (ascii '%' :: ascii '0' :: out ++ if c ≠ 0 then [c] else [], fmt, args)
  else if c = ascii 's' then
    let (n, args) ← vaArg args
    return (outputString strings n, fmt, args)
  else if c = ascii '%' then return ([ascii '%'], fmt, args)
  else return ([ascii '%', c], fmt, args)

/-- The loop of `vprintk_with_putc`, for at most this many rounds. -/
def vprintkLoop : ℕ → List CChar → List Word → Except Fault (List CChar)
  | 0, _, _ => .error .unfinished
  | rounds + 1, fmt, args => do
    let c ← peek fmt
    if c = 0 then return []
    else if c ≠ ascii '%' then
      let rest ← vprintkLoop rounds fmt.tail args
      return c :: rest
    else
      let c ← peek fmt.tail
      if c = 0 then return [ascii '%']
      else
        let (out, fmt, args) ← directive strings fmt.tail args
        let rest ← vprintkLoop rounds fmt.tail args
        return out ++ rest

/-- Every round steps past a character, so the length of the object bounds their number. -/
def vprintkWithPutc (fmt : List CChar) (args : List Word) : Except Fault (List CChar) :=
  vprintkLoop strings (fmt.length + 1) fmt args

end PiPervisor.Printk
