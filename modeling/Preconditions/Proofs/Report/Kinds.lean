import Preconditions.Proofs.Report.Denotation

/-!
# Documents of kinds

A kind is told by its name, in any spelling of the text, or by an object with the name as its only key, and `null`.
Blanks may stand around every token. Nothing else is read as a kind.
-/

namespace Preconditions.Kind

open Json

inductive Spelled (k : Kind) : List Char → Prop where
  | name {ps : List Piece} {w : List Char} : TextSpelled ps w → Decodes ps k.name.toList →
      Spelled k ('"' :: w ++ ['"'])
  | key {ps : List Piece} {w b₁ b₂ b₃ b₄ : List Char} : TextSpelled ps w → Decodes ps k.name.toList →
      Blank b₁ → Blank b₂ → Blank b₃ → Blank b₄ →
      Spelled k ('{' :: b₁ ++ '"' :: w ++ '"' :: b₂ ++ ':' :: b₃ ++ ['n', 'u', 'l', 'l'] ++ b₄ ++ ['}'])

theorem exists_spells_denoted_iff {k : Kind} {w : List Char} : (∃ v, Spells v w ∧ Denoted v k) ↔ k.Spelled w := by
  constructor
  · intro hx
    obtain ⟨v, hv, ⟨⟨hk⟩⟩ | hk⟩ := hx
    · rcases hv with _ | _ | _ | _ | hw
      exact .name hw hk
    · rcases hv with _ | _ | _ | _ | _ | _ | hm
      rcases hm with _ | ⟨⟨hb₁⟩, ⟨hw, hb₂, hb₃⟩, ⟨⟩, hb₄ | _⟩
      have h := Spelled.key hw hk hb₁ hb₂ hb₃ hb₄
      simpa using h
  · intro hx
    rcases hx with ⟨hw, hk⟩ | ⟨hw, hk, hb₁, hb₂, hb₃, hb₄⟩
    · exact ⟨_, .text hw, .name (.mk hk)⟩
    · have h := Spells.object (.cons (.first hb₁) (.mk hw hb₂ hb₃) .nullWord (.nil hb₄))
      exact ⟨_, by simpa using h, .key hk⟩

theorem ofJson_eq_ok_iff {text : String} {k : Kind} : ofJson text = .ok k ↔ Spaced k.Spelled text.toList := by
  have hreads : reader.Reads value? := variant_reads
  rw [ofJson, hreads.decode_eq_ok_iff, exists_document_iff]
  refine spaced_congr fun w => ?_
  simp only [value?_eq_some_iff, exists_spells_denoted_iff]

/-- **Documents of kinds.** A text is read as a kind exactly when it tells this kind, with blanks around it. Every other
text is refused. What is written of a kind is read back. -/
theorem ofJson_kinds (text : String) :
    (∀ k, ofJson text = .ok k ↔ Spaced k.Spelled text.toList) ∧
    ((∃ e, ofJson text = .error e) ↔ ¬ ∃ k : Kind, Spaced k.Spelled text.toList) ∧
    ∀ k : Kind, ofJson k.written = .ok k := by
  refine ⟨fun k => ofJson_eq_ok_iff, ?_, fun k => ?_⟩
  · simp only [exists_error_iff, ofJson_eq_ok_iff]
  · obtain ⟨v, hv, hname⟩ := spells_writtenText k.name
    have hspelled : k.Spelled (writtenText k.name) := exists_spells_denoted_iff.1 ⟨v, hv, .name hname⟩
    rw [ofJson_eq_ok_iff, written, String.toList_ofList]
    simpa using Spaced.mk blank_nil hspelled blank_nil

end Preconditions.Kind
