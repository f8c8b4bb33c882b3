import AibomWebhook.Library.Float64
import AibomWebhook.Library.PyText
import AibomWebhook.Library.PyValue
import Mathlib.Data.Nat.Digits.Defs

/-! The numbers that `int` and `float` of Python read from a text. -/

namespace PyNumber
open PyValue

/-! Digits. -/

/-- The zeros of the decimal digits of Unicode; the other nine digits of a script come after its zero. -/
def digitZeros : List Nat :=
  [0x30, 0x660, 0x6f0, 0x7c0, 0x966, 0x9e6, 0xa66, 0xae6, 0xb66, 0xbe6, 0xc66, 0xce6, 0xd66, 0xde6, 0xe50, 0xed0, 0xf20,
    0x1040, 0x1090, 0x17e0, 0x1810, 0x1946, 0x19d0, 0x1a80, 0x1a90, 0x1b50, 0x1bb0, 0x1c40, 0x1c50, 0xa620, 0xa8d0, 0xa900,
    0xa9d0, 0xa9f0, 0xaa50, 0xabf0, 0xff10, 0x104a0, 0x10d30, 0x11066, 0x110f0, 0x11136, 0x111d0, 0x112f0, 0x11450, 0x114d0,
    0x11650, 0x116c0, 0x11730, 0x118e0, 0x11950, 0x11c50, 0x11d50, 0x11da0, 0x11f50, 0x16a60, 0x16ac0, 0x16b50, 0x1d7ce,
    0x1d7d8, 0x1d7e2, 0x1d7ec, 0x1d7f6, 0x1e140, 0x1e2f0, 0x1e4f0, 0x1e950, 0x1fbf0]

def digitOf (c : Char) : Option Nat :=
  (digitZeros.find? fun first => first ≤ c.toNat && c.toNat < first + 10).map (c.toNat - ·)

/-- Digits with single underscores between them. -/
def digits : List Char → Option (List Nat)
  | [] => none
  | [c] => (digitOf c).map fun d => [d]
  | c :: '_' :: rest => (digitOf c).bind fun d => (digits rest).map (d :: ·)
  | c :: rest => (digitOf c).bind fun d => (digits rest).map (d :: ·)

def valueOf (list : List Nat) : Nat := list.foldl (fun value d => 10 * value + d) 0

/-- White space around a number; the separators of ASCII are none here. -/
def isBlank (c : Char) : Bool := (PyText.isSpace c && 127 ≤ c.toNat) || (9 ≤ c.toNat && c.toNat ≤ 13) || c = ' '

def trim (text : String) : List Char := (text.toList.dropWhile isBlank).rdropWhile isBlank

/-- Whether there is a minus sign, and what comes after the sign. -/
def sign : List Char → Bool × List Char
  | '-' :: rest => (true, rest)
  | '+' :: rest => (false, rest)
  | rest => (false, rest)

/-! Whole numbers. -/

/-- The limit of `sys.get_int_max_str_digits()`. -/
def maxDigits : Nat := 4300

/-- `int(text)`, unless it raises. -/
def intOf (text : String) : Option Int :=
  let (negative, body) := sign (trim text)
  (digits body).bind fun list =>
    if list.length ≤ maxDigits then some (if negative then -(valueOf list : Int) else valueOf list) else none

/-! Floats. -/

/-- The number of a float, which is that of its bits. -/
def ofFloat64 (f : Float64) : PyFloat :=
  if f.mantissa = 0 then if f.negative then .negativeZero else .finite 0
  else .finite (mkRat ((if f.negative then -1 else 1) * (f.mantissa * 2 ^ f.exponent : Nat)) (2 ^ Float64.bias))

/-- The float nearest to `list * 10 ^ power`. -/
def ofDecimal (negative : Bool) (list : List Nat) (power : Int) : PyFloat :=
  match Float64.ofDecimal negative (valueOf list) power with
  | some f => ofFloat64 f
  | none => .inf negative

/-- The digits before and after the point. -/
def mantissaOf (text : List Char) : Option (List Nat × List Nat) :=
  let whole := text.takeWhile (· ≠ '.')
  match text.drop whole.length with
  | [] => (digits whole).map fun list => (list, [])
  | _ :: [] => (digits whole).map fun list => (list, [])
  | _ :: fraction =>
    if whole = [] then (digits fraction).map fun list => ([], list)
    else (digits whole).bind fun first => (digits fraction).map fun second => (first, second)

def exponentOf : List Char → Option Int
  | [] => some 0
  | _ :: rest =>
    let (negative, body) := sign rest
    (digits body).map fun list => if negative then -(valueOf list : Int) else valueOf list

/-- `float(text)`, unless it raises. -/
def floatOf (text : String) : Option PyFloat :=
  let (negative, body) := sign (trim text)
  let word := body.map Char.toLower
  if word = "inf".toList ∨ word = "infinity".toList then some (.inf negative)
  else if word = "nan".toList then some .nan
  else
    let mantissa := body.takeWhile fun c => c ≠ 'e' && c ≠ 'E'
    (mantissaOf mantissa).bind fun parts =>
      (exponentOf (body.drop mantissa.length)).map fun exponent =>
        ofDecimal negative (parts.1 ++ parts.2) (exponent - parts.2.length)

example : intOf " -1_0 " = some (-10) := by decide +kernel

example : floatOf "+.5e-0" = some (.finite (1 / 2)) := by decide +kernel

end PyNumber
