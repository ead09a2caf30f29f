/-! # Texts compared without regard to the case of ASCII letters -/

namespace Preconditions.Text

def lowered (s : List Char) : List Char := s.map Char.toLower

/-- Letters outside ASCII differ from their other case: only `A` to `Z` are lowered. -/
def sameIgnoringCase (s t : String) : Bool := lowered s.toList == lowered t.toList

theorem sameIgnoringCase_iff {s t : String} :
    sameIgnoringCase s t = true ↔ lowered s.toList = lowered t.toList := by
  simp [sameIgnoringCase]

end Preconditions.Text
