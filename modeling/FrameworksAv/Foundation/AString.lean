import Mathlib.Algebra.Order.Ring.Int
import Mathlib.Data.List.Basic

/-
  Strings of bytes.

  A byte is the character of the same value. Functions of the C library stop at the first zero byte,
  and those of the string class go to the end.

  Main declarations:
    * `AString.find`, `AString.tolower`, `AString.trim`
    * `strtol`
-/

--
-- Strings
--

namespace FrameworksAv

namespace Foundation

abbrev AString := List Char

namespace AString

/- What the C library sees of a string. -/
def cStr (s : AString) : AString :=
  s.takeWhile (· ≠ '\x00')

def find (s : AString) (ch : Char) (start : Nat) : Option Nat :=
  ((cStr (s.drop start)).findIdx? (· == ch)).map (· + start)

def tolower (s : AString) : AString :=
  s.map Char.toLower

def isspace (c : Char) : Bool :=
  c == ' ' || c == '\t' || c == '\n' || c == '\x0b' || c == '\x0c' || c == '\r'

def trim (s : AString) : AString :=
  ((s.dropWhile isspace).reverse.dropWhile isspace).reverse

end AString

/-
  A decimal number in front of a string: its sign, its value and what follows; `none` where there
  are no digits.
-/
def number (s : AString) : Option (Bool × Nat × AString) :=
  let s := (AString.cStr s).dropWhile AString.isspace
  let negative := s.head? == some '-'
  let s := if s.head? == some '-' || s.head? == some '+' then s.tail else s
  let digits := s.takeWhile Char.isDigit
  if digits = [] then none
  else
    some
      (negative, digits.foldl (fun value c => 10 * value + (c.toNat - '0'.toNat)) 0,
        s.dropWhile Char.isDigit)

def strtol (s : AString) : Option (Int × AString) :=
  (number s).map
    (fun (negative, value, rest) =>
      (if negative then max (-value) (-(2 : Int) ^ 63) else min value (2 ^ 63 - 1), rest))

end Foundation

end FrameworksAv
