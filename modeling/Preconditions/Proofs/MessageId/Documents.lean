import Preconditions.MessageId
import Preconditions.Proofs.Json.Numerals

/-!
# Documents of message numbers

A message number is read from its numeral, with blanks around it, and from nothing else.
-/

namespace Preconditions.MessageId

open Json

theorem number_eq_some_iff {v : Value} {id : MessageId} :
    v.word16?.map mk = some id ↔ v.natural? = some id.number.toNat := by
  rw [Option.map_eq_some_iff, Value.word16?]
  constructor
  · intro hx
    obtain ⟨k, hk, rfl⟩ := hx
    obtain ⟨n, hn, h⟩ := Option.bind_eq_some_iff.1 hk
    split at h
    · rename_i hlt
      cases h
      rw [hn, UInt16.toNat_ofNat_of_lt' hlt]
    · cases h
  · intro h
    have hlt : id.number.toNat < UInt16.size := id.number.toNat_lt
    exact ⟨id.number, by rw [h, Option.bind_some, if_pos hlt, UInt16.ofNat_toNat], rfl⟩

theorem ofJson_eq_ok_iff {text : String} {id : MessageId} :
    ofJson text = .ok id ↔ Spaced (Numeral id.number.toNat) text.toList := by
  rw [ofJson, reader, (word16_reads.map mk).decode_eq_ok_iff, exists_document_iff]
  refine spaced_congr fun w => ?_
  simp only [number_eq_some_iff, exists_spells_natural_iff]

theorem exists_number_iff {n : Nat} {text : String} :
    (∃ id, ofJson text = .ok id ∧ id.number.toNat = n) ↔ n ≤ 65535 ∧ Spaced (Numeral n) text.toList := by
  simp only [ofJson_eq_ok_iff]
  constructor
  · intro hx
    obtain ⟨id, hs, rfl⟩ := hx
    exact ⟨Nat.le_of_lt_succ id.number.toNat_lt, hs⟩
  · intro hx
    obtain ⟨hle, hs⟩ := hx
    have hn : (UInt16.ofNat n).toNat = n := UInt16.toNat_ofNat_of_lt' (Nat.lt_succ_of_le hle)
    exact ⟨⟨.ofNat n⟩, hn.symm ▸ hs, hn⟩

/-- **Documents of message numbers.** The number `n` is read exactly from its numeral with blanks around it, if it is
65535 at most. Every other text is refused. What is written of a number is read back. -/
theorem ofJson_numerals (text : String) :
    (∀ n : Nat, (∃ id, ofJson text = .ok id ∧ id.number.toNat = n) ↔ n ≤ 65535 ∧ Spaced (Numeral n) text.toList) ∧
    ((∃ e, ofJson text = .error e) ↔ ¬ ∃ n ≤ 65535, Spaced (Numeral n) text.toList) ∧
    ∀ id : MessageId, ofJson id.written = .ok id := by
  refine ⟨fun n => exists_number_iff, ?_, fun id => ?_⟩
  · simp only [← exists_number_iff, exists_error_iff]
    simp
  · rw [ofJson_eq_ok_iff, written, String.toList_ofList]
    simpa using Spaced.mk blank_nil (numeral_writtenNat id.number.toNat) blank_nil

end Preconditions.MessageId
