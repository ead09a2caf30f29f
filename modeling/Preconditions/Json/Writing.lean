import Preconditions.Json.TextLiteral

/-!
# Compact writing

Values are written without blanks, the members of an object in the given order.
-/

namespace Preconditions.Json

def writtenNat (n : Nat) : List Char := Nat.toDigits 10 n

def writtenBool (b : Bool) : List Char := if b then ['t', 'r', 'u', 'e'] else ['f', 'a', 'l', 's', 'e']

def writtenMember (m : String × List Char) : List Char := writtenText m.1 ++ ':' :: m.2

def writtenObject (members : List (String × List Char)) : List Char :=
  '{' :: [','].intercalate (members.map writtenMember) ++ ['}']

end Preconditions.Json
