/-!
# Whitespace of all scripts
-/

namespace Preconditions.Text

def whitespaceRanges : List (Nat × Nat) :=
  [(0x9, 0xd), (0x20, 0x20), (0x85, 0x85), (0xa0, 0xa0), (0x1680, 0x1680), (0x2000, 0x200a), (0x2028, 0x2029),
   (0x202f, 0x202f), (0x205f, 0x205f), (0x3000, 0x3000)]

def isWhitespace (c : Char) : Bool :=
  whitespaceRanges.any fun (low, high) => low ≤ c.toNat && c.toNat ≤ high

theorem isWhitespace_of_visible {c : Char} (h : 0x20 < c.toNat ∧ c.toNat < 0x7f) : isWhitespace c = false := by
  simp [isWhitespace, whitespaceRanges]
  omega

def strippedEnd (s : List Char) : List Char := (s.reverse.dropWhile isWhitespace).reverse

def stripped (s : List Char) : List Char := strippedEnd (s.dropWhile isWhitespace)

theorem strippedEnd_append_cons {c : Char} (h : isWhitespace c = false) (s t : List Char) :
    strippedEnd (s ++ c :: t) = s ++ c :: strippedEnd t := by
  have hc : (c :: s.reverse).dropWhile isWhitespace = c :: s.reverse := List.dropWhile_cons_of_neg (by simp [h])
  have hr : (s ++ c :: t).reverse = t.reverse ++ c :: s.reverse := by simp
  rw [strippedEnd, strippedEnd, hr, List.dropWhile_append, hc]
  by_cases ht : t.reverse.dropWhile isWhitespace = []
  · simp [ht]
  · simp [ht]

theorem strippedEnd_concat {c : Char} (h : isWhitespace c = false) (s : List Char) :
    strippedEnd (s ++ [c]) = s ++ [c] := strippedEnd_append_cons h s []

theorem stripped_eq_self {s : List Char} (hs : s.head?.any isWhitespace = false)
    (ht : s.getLast?.any isWhitespace = false) : stripped s = s := by
  cases s with
  | nil => rfl
  | cons c s =>
    rw [stripped, List.dropWhile_cons_of_neg (by simpa using hs)]
    obtain ⟨t, d, h⟩ := List.eq_nil_or_concat (c :: s) |>.resolve_left (by simp)
    rw [h] at ht ⊢
    simp only [List.concat_eq_append] at ht ⊢
    exact strippedEnd_concat (by simpa using ht) t

end Preconditions.Text
