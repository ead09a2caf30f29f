import Preconditions.Text.Caseless

/-!
# Numerals

A numeral is a sign, if any, and a decimal number with a point and an exponent, if any, or the name of a value
that is no finite number.
-/

namespace Preconditions.Text

def unsigned : List Char → List Char
  | '+' :: s => s
  | '-' :: s => s
  | s => s

def isExponent : List Char → Bool
  | [] => true
  | c :: s => (c = 'e' || c = 'E') && unsigned s ≠ [] && (unsigned s).all Char.isDigit

def isDecimal (s : List Char) : Bool :=
  let whole := s.takeWhile Char.isDigit
  match s.dropWhile Char.isDigit with
  | '.' :: t => (whole ≠ [] || t.head?.any Char.isDigit) && isExponent (t.dropWhile Char.isDigit)
  | t => whole ≠ [] && isExponent t

def isNumeral (s : List Char) : Bool :=
  isDecimal (unsigned s) || ["inf", "infinity", "nan"].any fun name => lowered (unsigned s) == name.toList

end Preconditions.Text
