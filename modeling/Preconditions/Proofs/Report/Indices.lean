import Preconditions.Proofs.Json.Frames
import Preconditions.Proofs.Report.Conflicts

/-!
# Indices of reports

The index of a report is a number of 64 bits. A numeral in its place is read as this number or refused: none is cut off
to 64 bits, and none goes through a double.
-/

namespace Preconditions.Report

open Json

/-- The text before and after the value of the index, in an object that is read as the report with some value there. -/
structure AwaitsIndex (r : Report) (before after : List Char) : Prop where
  frame : Frame "index" before after
  valid : ∃ v w, Spells v w ∧ ofJson (String.ofList (before ++ w ++ after)) = .ok r

theorem denoted_splice {ms ms' : List (List Piece × Value)} {k : List Piece} {v v' : Value} {r : Report}
    (hk : Decodes k "index".toList) (hr : Denoted (.object (ms ++ (k, v) :: ms')) r) {o : Option UInt64}
    (ho : v'.Nullable Value.IsWord o) : Denoted (.object (ms ++ (k, v') :: ms')) { r with index := o } := by
  have hother : ∀ other, other ≠ "index" →
      given other (ms ++ (k, v) :: ms') = given other (ms ++ (k, v') :: ms') := fun other h =>
    given_splice hk h ms ms' v v'
  obtain ⟨hkeys, h₁, h₂, h₃, h₄, h₅⟩ := hr
  rw [hother _ (by decide)] at h₁ h₂ h₃ h₄
  rw [given_append, given_cons_of_decodes hk, setting_splice] at h₅
  obtain ⟨hms, hms', -⟩ := h₅
  refine .object (keysDecode_splice hkeys v') h₁ h₂ h₃ h₄ ?_
  rw [given_append, given_cons_of_decodes hk, setting_splice]
  exact ⟨hms, hms', ho⟩

theorem denoted_splice_iff {ms ms' : List (List Piece × Value)} {k : List Piece} {v v' : Value} {r r' : Report}
    (hk : Decodes k "index".toList) (hr : Denoted (.object (ms ++ (k, v) :: ms')) r) :
    Denoted (.object (ms ++ (k, v') :: ms')) r' ↔ ∃ o, v'.Nullable Value.IsWord o ∧ r' = { r with index := o } := by
  constructor
  · intro hr'
    have hindex : v'.Nullable Value.IsWord r'.index := by
      obtain ⟨-, -, -, -, -, h⟩ := hr'
      rw [given_append, given_cons_of_decodes hk, setting_splice] at h
      exact h.2.2
    exact ⟨r'.index, hindex, hr'.unique (denoted_splice hk hr hindex)⟩
  · intro hx
    obtain ⟨o, ho, rfl⟩ := hx
    exact denoted_splice hk hr ho

theorem nullable_numeral_iff {n : Nat} {d : List Char} (hd : Numeral n d) {o : Option UInt64} :
    (Value.number ⟨false, d, [], none⟩).Nullable Value.IsWord o ↔ ∃ i : UInt64, i.toNat = n ∧ o = some i := by
  constructor
  · intro hx
    rcases hx with _ | ⟨⟨h⟩⟩
    exact ⟨_, h.symm.trans hd.value, rfl⟩
  · intro hx
    obtain ⟨i, hi, rfl⟩ := hx
    exact .value (.mk (hd.value.trans hi.symm))

theorem AwaitsIndex.ofJson_eq_ok_iff {r r' : Report} {before after d : List Char} {n : Nat}
    (h : AwaitsIndex r before after) (hd : Numeral n d) :
    ofJson (String.ofList (before ++ d ++ after)) = .ok r' ↔
      ∃ i : UInt64, i.toNat = n ∧ r' = { r with index := some i } := by
  obtain ⟨ms, k, ms', hk, hdoc⟩ := h.frame.document
  have hread : ∀ {v w s}, Spells v w → (ofJson (String.ofList (before ++ w ++ after)) = .ok s ↔
      Denoted (.object (ms ++ (k, v) :: ms')) s) := fun hw =>
    ofJson_iff_of_document (String.toList_ofList ▸ hdoc _ _ hw)
  obtain ⟨v, w, hw, hr⟩ := h.valid
  rw [hread hd.spells, denoted_splice_iff hk ((hread hw).1 hr)]
  simp only [nullable_numeral_iff hd]
  constructor
  · intro hx
    obtain ⟨_, ⟨i, hi, rfl⟩, hr'⟩ := hx
    exact ⟨i, hi, hr'⟩
  · intro hx
    obtain ⟨i, hi, hr'⟩ := hx
    exact ⟨_, ⟨i, hi, rfl⟩, hr'⟩

theorem awaitsIndex_last : AwaitsIndex ⟨.nullReference, "", "", none, some 7⟩
    "\x7b\"kind\":\"null_reference\",\"code\":\"\",\"message\":\"\",\"index\":".toList "\x7d".toList := by
  have hkind : TextSpelled ("kind".toList.map .char) "kind".toList := textSpelled_chars rfl
  have hname : TextSpelled ("null_reference".toList.map .char) "null_reference".toList := textSpelled_chars rfl
  have hcode : TextSpelled ("code".toList.map .char) "code".toList := textSpelled_chars rfl
  have hmessage : TextSpelled ("message".toList.map .char) "message".toList := textSpelled_chars rfl
  have hindex : TextSpelled ("index".toList.map .char) "index".toList := textSpelled_chars rfl
  have hmembers : Members true _ _ :=
    .cons (.first blank_nil) (.mk hkind blank_nil blank_nil) (.text hname)
      (.cons (.next blank_nil blank_nil) (.mk hcode blank_nil blank_nil) (.text .nil)
        (.cons (.next blank_nil blank_nil) (.mk hmessage blank_nil blank_nil) (.text .nil) (.nil blank_nil)))
  have hopened : Opened _ _ _ := .mk blank_nil hmembers (.next blank_nil blank_nil) hindex
  have hframe : Frame "index" _ _ := .mk hopened (by decide) blank_nil blank_nil (.nil blank_nil) blank_nil
  have hwritten : "\x7b\"kind\":\"null_reference\",\"code\":\"\",\"message\":\"\",\"index\":".toList ++
      writtenNat 7 ++ "\x7d".toList = writtenObject (members ⟨.nullReference, "", "", none, some 7⟩) := by decide
  exact ⟨hframe, _, _, (numeral_writtenNat 7).spells, by rw [hwritten]; exact ofJson_written _⟩

theorem exists_word64_iff {n : Nat} : (∃ i : UInt64, i.toNat = n) ↔ n ≤ 18446744073709551615 := by
  constructor
  · rintro ⟨i, rfl⟩
    exact Nat.le_of_lt_succ i.toNat_lt
  · exact fun h => ⟨.ofNat n, UInt64.toNat_ofNat_of_lt' (Nat.lt_succ_of_le h)⟩

/-- **Indices of any length.** With a numeral in the place of the index, an object that is a report otherwise is read
exactly when the number is `2 ^ 64 - 1` at most, and the index is then this number, the rest as it was. For a greater
number no report is read. The digits, taken one by one into 64 bits, find room in the same cases. -/
theorem index_exact {r : Report} {before after d : List Char} {n : Nat} (h : AwaitsIndex r before after)
    (hd : Numeral n d) :
    ((∃ r', ofJson (String.ofList (before ++ d ++ after)) = .ok r') ↔ n ≤ 18446744073709551615) ∧
    (∀ r', ofJson (String.ofList (before ++ d ++ after)) = .ok r' ↔
      ∃ i : UInt64, i.toNat = n ∧ r' = { r with index := some i }) ∧
    ((∃ e, ofJson (String.ofList (before ++ d ++ after)) = .error e) ↔ 18446744073709551615 < n) ∧
    (Significand.ofWhole d = ⟨n, 0, false⟩ ↔ n ≤ 18446744073709551615) := by
  have hread : (∃ r', ofJson (String.ofList (before ++ d ++ after)) = .ok r') ↔ n ≤ 18446744073709551615 := by
    simp only [h.ofJson_eq_ok_iff hd, ← exists_word64_iff]
    constructor
    · rintro ⟨_, i, hi, -⟩
      exact ⟨i, hi⟩
    · rintro ⟨i, hi⟩
      exact ⟨_, i, hi, rfl⟩
  refine ⟨hread, fun r' => h.ofJson_eq_ok_iff hd, ?_, ?_⟩
  · rw [exists_error_iff, hread, Nat.not_le]
  · have hdigits := Significand.foldl_push_iff (v := 0) (by decide) d
    rw [hd.value] at hdigits
    exact hdigits.trans Nat.lt_succ_iff

theorem index_exact_greatest :
    (∃ i : UInt64, i.toNat = 18446744073709551615 ∧
      ofJson "\x7b\"kind\":\"null_reference\",\"code\":\"\",\"message\":\"\",\"index\":18446744073709551615\x7d" =
        .ok ⟨.nullReference, "", "", none, some i⟩) ∧
    ∃ e, ofJson "\x7b\"kind\":\"null_reference\",\"code\":\"\",\"message\":\"\",\"index\":18446744073709551616\x7d" =
      .error e := by
  have hgreatest : Numeral 18446744073709551615 "18446744073709551615".toList :=
    ⟨⟨by decide, List.all_eq_true.1 rfl⟩, by decide, by decide⟩
  have hnext : Numeral 18446744073709551616 "18446744073709551616".toList :=
    ⟨⟨by decide, List.all_eq_true.1 rfl⟩, by decide, by decide⟩
  obtain ⟨hread, hindex, -⟩ := index_exact awaitsIndex_last hgreatest
  obtain ⟨r, hr⟩ := hread.2 (Nat.le_refl _)
  obtain ⟨i, hi, rfl⟩ := (hindex r).1 hr
  obtain ⟨-, -, hrefused, -⟩ := index_exact awaitsIndex_last hnext
  exact ⟨⟨i, hi, hr⟩, hrefused.2 (by decide)⟩

end Preconditions.Report
