import Preconditions.Proofs.Json.LocalRecords
import Preconditions.Proofs.Text.Positions

/-!
# Places of refusals

A refusal names a place in the text, before which all was taken or looked at. What comes after the place has no part in
the refusal.
-/

namespace Preconditions.Json

open Text (Position byteCount byteCount_append byteCount_le_of_suffix byteCount_toList length_utf8 utf8 utf8_append
  utf8_toList)

/-- The place of the refusal comes after the first `k` bytes of the text. -/
structure Placed {α : Type} (decode : String → Except Refusal α) (text : String) (e : Refusal) (k : Nat) : Prop where
  inside : k ≤ text.utf8ByteSize
  reached : Position.Reached (text.toByteArray.data.toList.take k) e.position
  named : e.message = e.cause.message ++
    " at line " ++ toString e.position.line ++ " column " ++ toString e.position.column
  /-- Only the end of the text shows that it ends too early. -/
  ended : e.cause.category = .truncated → k = text.utf8ByteSize
  /-- What comes after the place and the character behind it has no part in the refusal. -/
  settled : ∀ s : String, s.toList <+: text.toList → k < s.utf8ByteSize → ∀ u, decode (s ++ u) = .error e

def PointsInto {α : Type} (decode : String → Except Refusal α) : Prop :=
  ∀ text e, decode text = .error e → ∃ k, Placed decode text e k

instance decidableRefused {α : Type} (e : Refusal) : (x : Except Refusal α) → Decidable (x = .error e)
  | .ok _ => .isFalse nofun
  | .error e' => decidable_of_iff (e' = e) ⟨congrArg _, Except.error.inj⟩

/-! ## Refusals on texts that begin alike -/

def finishReading {α : Type} (a : α) (s : List Char) : Reading α :=
  match skipBlanks s with
  | [] => .ok (a, [])
  | c :: t => .error (.next .trailingCharacters (c :: t))

section
variable {α : Type}

theorem finishReading_within (a : α) (s : List Char) : Within s (finishReading a s) := by
  unfold finishReading
  split
  · exact within_ok List.nil_suffix
  · rename_i c t hs
    exact within_next (suffix_of_skipBlanks hs)

theorem finishReading_local (a : α) : Local (finishReading a) where
  within := finishReading_within a
  steady p := by
    apply steady_of_blanks (finishReading_within a)
    · intro s
      simp only [finishReading, skipBlanks_skipBlanks]
    · intro c q hp
      simp only [finishReading, skipBlanks_eq_self (not_blank_of_skipBlanks hp)]
      exact steady_error (by rintro ⟨⟩) [c] 1

theorem document_eq_error_iff {r : Reader α} {s : List Char} {f : Fault} :
    r.document s = .error f ↔ (r.run s).andThen finishReading = .error f := by
  unfold Reader.document
  rcases r.run s with g | ⟨a, rest⟩
  · simp [Reading.andThen]
  · simp only [Reading.andThen, finishDocument, finishReading]
    cases skipBlanks rest <;> simp

theorem exists_cut_of_offset_lt {f : Fault} {p u : List Char} (h : f.rest <:+ p ++ u)
    (hlt : f.offset (p ++ u) < byteCount p) :
    ∃ q, q <:+ p ∧ f = ⟨f.cause, q ++ u, f.ahead⟩ ∧ f.ahead < byteCount q := by
  obtain ⟨w, hw⟩ := h
  obtain ⟨q, rfl, hq⟩ | ⟨x, rfl, hu⟩ := List.append_eq_append_iff.1 hw
  · refine ⟨q, List.suffix_append w q, by rw [← hq], ?_⟩
    simp only [Fault.offset, hq, byteCount_append] at hlt
    omega
  · -- nothing of `p` is left
    have hle := byteCount_le_of_suffix ⟨x, hu.symm⟩
    simp only [Fault.offset, byteCount_append] at hlt
    omega

theorem offset_cut {c : Cause} {p q u : List Char} {n : Nat} (hq : q <:+ p) (hn : n < byteCount q) :
    Fault.offset ⟨c, q ++ u, n⟩ (p ++ u) = byteCount p - byteCount q + n := by
  have hle := byteCount_le_of_suffix hq
  simp only [Fault.offset, byteCount_append]
  omega

theorem refusal_cut {c : Cause} {p q : List Char} {n : Nat} (hq : q <:+ p) (hn : n < byteCount q) (u v : List Char) :
    Fault.refusal ⟨c, q ++ u, n⟩ (String.ofList (p ++ u)) = Fault.refusal ⟨c, q ++ v, n⟩ (String.ofList (p ++ v)) := by
  have hle := byteCount_le_of_suffix hq
  have hfit : byteCount p - byteCount q + n ≤ (utf8 p).length := by
    rw [length_utf8]
    omega
  simp only [Fault.refusal, String.toList_ofList, offset_cut hq hn, utf8_append, List.take_append_of_le_length hfit]

variable {r : Reader α} (hr : Local r.run)
include hr

theorem decode_cut {p u : List Char} {f : Fault} (hf : r.document (p ++ u) = .error f)
    (hlt : f.offset (p ++ u) < byteCount p) (v : List Char) :
    r.decode (String.ofList (p ++ v)) = .error (f.refusal (String.ofList (p ++ u))) := by
  have hlocal := hr.andThen finishReading_local
  obtain ⟨q, hq, hcut, hn⟩ := exists_cut_of_offset_lt (Reader.document_error_suffix hf) hlt
  rw [hcut] at hf ⊢
  have hv := ((hlocal.steady p).agrees u v).refused hn (document_eq_error_iff.1 hf)
  simp only [Reader.decode, String.toList_ofList, document_eq_error_iff.2 hv]
  rw [refusal_cut hq hn u v]

theorem offset_of_truncated {s : List Char} {f : Fault} (hf : r.document s = .error f)
    (ht : f.cause.category = .truncated) : f.offset s = byteCount s := by
  have hlocal := hr.andThen finishReading_local
  have hrest := (hlocal.steady s).ends (document_eq_error_iff.1 hf) ht
  simp [Fault.offset, hrest, byteCount]

theorem placed_of_document {text : String} {f : Fault} (hf : r.document text.toList = .error f) :
    Placed r.decode text (f.refusal text) (f.offset text.toList) where
  inside := by
    rw [← byteCount_toList]
    exact Fault.offset_le (Reader.document_error_suffix hf)
  reached := by
    rw [← utf8_toList]
    exact Position.reached_after _
  named := rfl
  ended ht := by
    rw [← byteCount_toList]
    exact offset_of_truncated hr hf ht
  settled := by
    rintro s ⟨u, hu⟩ hlt v
    rw [← byteCount_toList] at hlt
    rw [← hu] at hf hlt
    have hcut := decode_cut hr hf hlt v.toList
    rwa [hu, String.ofList_toList, ← String.toList_append, String.ofList_toList] at hcut

theorem pointsInto_decode : PointsInto r.decode := by
  intro text e he
  unfold Reader.decode at he
  split at he
  · cases he
  · rename_i f hf
    cases he
    exact ⟨f.offset text.toList, placed_of_document hr hf⟩

end

end Preconditions.Json
