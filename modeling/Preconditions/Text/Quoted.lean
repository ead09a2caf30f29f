import Preconditions.Text.Visible

/-!
# Quoted texts

A quoted text stands between double quotes on one line: what is not visible is written as an escape, so no
control character and no bare quote is left inside.
-/

namespace Preconditions.Text

def numericEscape (c : Char) : List Char := ['\\', 'u', '{'] ++ Nat.toDigits 16 c.toNat ++ ['}']

def quotedChar (c : Char) : List Char :=
  if c = '"' then ['\\', '"']
  else if c = '\\' then ['\\', '\\']
  else if c = '\x00' then ['\\', '0']
  else if c = '\t' then ['\\', 't']
  else if c = '\n' then ['\\', 'n']
  else if c = '\r' then ['\\', 'r']
  else if isVisible c then [c]
  else numericEscape c

theorem quotedChar_ne_nil (c : Char) : quotedChar c ≠ [] := by
  unfold quotedChar numericEscape
  repeat' split
  all_goals simp

def quoted (s : String) : String := String.ofList ('"' :: s.toList.flatMap quotedChar ++ ['"'])

theorem toList_quoted (s : String) : (quoted s).toList = '"' :: s.toList.flatMap quotedChar ++ ['"'] := by
  simp [quoted]

end Preconditions.Text
