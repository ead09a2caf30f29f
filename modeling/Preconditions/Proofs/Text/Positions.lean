import Preconditions.Text.Position

/-!
# Lines and columns

The bytes before a place fall into lines that are ended and the beginning of one that is not.
-/

namespace Preconditions.Text.Position

/-- The place after the bytes: its line is 1 and the line breaks among them, its column the number of bytes after the
last of these. -/
structure Reached (bytes : List UInt8) (p : Position) : Prop where
  line : p.line = 1 + bytes.count lineBreak
  column : ∃ lines last, bytes = lines ++ last ∧ (lines = [] ∨ lines.getLast? = some lineBreak) ∧ lineBreak ∉ last ∧
    p.column = last.length

theorem reached_after (bytes : List UInt8) : Reached bytes (.after bytes) where
  line := rfl
  column := by
    let inLine : UInt8 → Bool := (· != lineBreak)
    refine ⟨(bytes.reverse.dropWhile inLine).reverse, (bytes.reverse.takeWhile inLine).reverse, ?_, ?_, ?_, ?_⟩
    · rw [← List.reverse_append, List.takeWhile_append_dropWhile, List.reverse_reverse]
    · rw [List.reverse_eq_nil_iff, List.getLast?_reverse]
      have hstop := List.head?_dropWhile_not inLine bytes.reverse
      cases h : bytes.reverse.dropWhile inLine with
      | nil => exact .inl rfl
      | cons b bs =>
        rw [h] at hstop
        exact .inr (by simpa [inLine] using hstop)
    · intro hmem
      have hall := List.all_eq_true.1 List.all_takeWhile lineBreak (List.mem_reverse.1 hmem)
      simp [inLine] at hall
    · rw [List.length_reverse]
      rfl

theorem Reached.eq_after {bytes : List UInt8} {p : Position} (h : Reached bytes p) : p = .after bytes := by
  obtain ⟨hline, lines, last, rfl, hlines, hlast, hcolumn⟩ := h
  have hin : ∀ b ∈ last.reverse, (b != lineBreak) = true := by
    intro b hb
    rw [bne_iff_ne]
    rintro rfl
    exact hlast (List.mem_reverse.1 hb)
  have hended : lines.reverse.takeWhile (· != lineBreak) = [] := by
    rw [← List.head?_reverse] at hlines
    cases hl : lines.reverse with
    | nil => rfl
    | cons b bs =>
      obtain rfl | hb := hlines
      · cases hl
      · rw [hl] at hb
        cases hb
        rfl
  have hafter : (Position.after (lines ++ last)).column = last.length := by
    rw [after, List.reverse_append, List.takeWhile_append_of_pos hin, hended, List.append_nil, List.length_reverse]
  obtain ⟨line, column⟩ := p
  rw [Position.mk.injEq]
  exact ⟨hline, hcolumn.trans hafter.symm⟩

end Preconditions.Text.Position
