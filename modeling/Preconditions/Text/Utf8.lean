/-!
# The bytes of a text
-/

namespace Preconditions.Text

-- the zero of a sum is the literal, also where another library brings its own
attribute [local instance (high)] Zero.ofOfNat0

def utf8 (s : List Char) : List UInt8 := s.flatMap String.utf8EncodeChar

def byteCount (s : List Char) : Nat := (s.map Char.utf8Size).sum

theorem utf8_append (s t : List Char) : utf8 (s ++ t) = utf8 s ++ utf8 t := List.flatMap_append

theorem length_utf8 (s : List Char) : (utf8 s).length = byteCount s := by
  induction s with
  | nil => rfl
  | cons c s ih => simp [utf8, byteCount]

theorem utf8_toList (s : String) : utf8 s.toList = s.toByteArray.data.toList := by
  rw [← String.utf8Encode_toList, List.utf8Encode]
  simp [utf8]

theorem byteCount_toList (s : String) : byteCount s.toList = s.utf8ByteSize := by
  rw [← length_utf8, utf8_toList]; rfl

theorem byteCount_append (s t : List Char) : byteCount (s ++ t) = byteCount s + byteCount t := by
  simp [byteCount]

/-- Cuts a text after a number of bytes. There is no cut inside of a character. -/
def splitBytes? (n : Nat) : List Char → Option (List Char × List Char)
  | [] => if n = 0 then some ([], []) else none
  | c :: s =>
    if n = 0 then some ([], c :: s)
    else if c.utf8Size ≤ n then (splitBytes? (n - c.utf8Size) s).map fun (a, b) => (c :: a, b)
    else none

theorem splitBytes?_append (s t : List Char) : splitBytes? (byteCount s) (s ++ t) = some (s, t) := by
  induction s with
  | nil => cases t <;> rfl
  | cons c s ih =>
    have h : byteCount (c :: s) = c.utf8Size + byteCount s := by simp [byteCount]
    have hc := c.utf8Size_pos
    rw [List.cons_append, splitBytes?, h, if_neg (by omega), if_pos (by omega), Nat.add_sub_cancel_left, ih]
    rfl

theorem byteCount_le_of_suffix {s t : List Char} (h : s <:+ t) : byteCount s ≤ byteCount t := by
  obtain ⟨u, rfl⟩ := h
  rw [byteCount_append]
  exact Nat.le_add_left _ _

end Preconditions.Text
