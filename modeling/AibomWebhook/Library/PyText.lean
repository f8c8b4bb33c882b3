import Mathlib.Data.List.DropRight
import Mathlib.Tactic.Common

/-! Python's operations on text. -/

namespace PyText

/-- The characters that `str.isspace` knows. -/
def isSpace (c : Char) : Bool :=
  let n := c.toNat
  (9 ≤ n && n ≤ 13) || (28 ≤ n && n ≤ 32) || n == 0x85 || n == 0xa0 || n == 0x1680 || (0x2000 ≤ n && n ≤ 0x200a) ||
    n == 0x2028 || n == 0x2029 || n == 0x202f || n == 0x205f || n == 0x3000

/-- `str.strip()`. -/
def strip (text : String) : String := String.ofList ((text.toList.dropWhile isSpace).rdropWhile isSpace)

/-- `text[:length]`. -/
def upTo (length : Nat) (text : String) : String := String.ofList (text.toList.take length)

/-- `text.rstrip(cut)`, for a single character. -/
def rstrip (cut : Char) (text : String) : String := String.ofList (text.toList.rdropWhile (· = cut))

/-- `text[len(start):]`, where `text.startswith(start)`. -/
def afterStart (start text : String) : Option String :=
  if start.toList.isPrefixOf text.toList then some (String.ofList (text.toList.drop start.length)) else none

end PyText
