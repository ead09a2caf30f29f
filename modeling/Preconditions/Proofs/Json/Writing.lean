import Preconditions.Proofs.Json.Numerals

/-!
# What is written spells a value

Texts, numbers, the truth values and objects are written as spellings of values with the meaning they were
written from.
-/

namespace Preconditions.Json

/-! ## Scalars -/

theorem spells_writtenText (s : String) : ∃ v, Spells v (writtenText s) ∧ v.IsText s := by
  obtain ⟨ps, w, hw, h, hps⟩ := textBody_sound (textBody_written s.toList [])
  refine ⟨.text ps, ?_, .mk (decode?_eq_some_iff.1 hps)⟩
  rw [writtenText, List.cons_append, h]
  exact .text hw

theorem spells_writtenBool (b : Bool) : Spells (.boolean b) (writtenBool b) := by
  cases b
  · exact .falseWord
  · exact .trueWord

theorem spells_writtenNat (n : Nat) : ∃ l, Spells (.number l) (writtenNat n) ∧ (Value.number l).natural? = some n := by
  have hn := numeral_writtenNat n
  exact ⟨_, hn.spells, congrArg some hn.value⟩

/-! ## Objects -/

inductive Writes : List (String × List Char) → List (String × Value) → Prop where
  | nil : Writes [] []
  | cons {name : String} {w : List Char} {v : Value} {ms : List (String × List Char)} {vs : List (String × Value)} :
      Spells v w → Writes ms vs → Writes ((name, w) :: ms) ((name, v) :: vs)

theorem Writes.append {ms ms' : List (String × List Char)} {vs vs' : List (String × Value)} (h : Writes ms vs)
    (h' : Writes ms' vs') : Writes (ms ++ ms') (vs ++ vs') := by
  induction h with
  | nil => exact h'
  | cons hv _ ih => exact .cons hv ih

def valuesOf (name : String) (vs : List (String × Value)) : List Value := (vs.filter (·.1 = name)).map (·.2)

theorem valuesOf_append (name : String) (vs ws : List (String × Value)) :
    valuesOf name (vs ++ ws) = valuesOf name vs ++ valuesOf name ws := by simp [valuesOf]

theorem valuesOf_same (name : String) (vs : List Value) : valuesOf name (vs.map fun v => (name, v)) = vs := by
  induction vs with
  | nil => rfl
  | cons v vs ih => simpa [valuesOf] using ih

theorem valuesOf_other {name other : String} (h : other ≠ name) (vs : List Value) :
    valuesOf name (vs.map fun v => (other, v)) = [] := by
  simp [valuesOf, h]

def Names (ks : List (List Piece × Value)) (vs : List (String × Value)) : Prop :=
  KeysDecode ks ∧ ∀ name, given name ks = valuesOf name vs

theorem names_nil : Names [] [] := ⟨keysDecode_nil, fun _ => rfl⟩

theorem names_cons {k : List Piece} {name : String} {v : Value} {ks : List (List Piece × Value)}
    {vs : List (String × Value)} (hk : Decodes k name.toList) (h : Names ks vs) :
    Names ((k, v) :: ks) ((name, v) :: vs) := by
  refine ⟨?_, fun other => ?_⟩
  · rintro m (_ | hm)
    · exact ⟨_, hk⟩
    · exact h.1 m ‹_›
  · by_cases ho : name = other
    · subst ho
      rw [given_cons_of_decodes hk, h.2]
      simp [valuesOf]
    · have hk' : ¬ Decodes k other.toList := fun hk' => ho (String.toList_injective (decodes_inj hk hk'))
      rw [given_cons_of_not hk', h.2]
      simp [valuesOf, ho]

theorem keySpelled_written (name : String) :
    ∃ k, KeySpelled k (writtenText name ++ [':']) ∧ Decodes k name.toList := by
  obtain ⟨ps, w, hw, h, hps⟩ := textBody_sound (textBody_written name.toList [])
  refine ⟨ps, ?_, decode?_eq_some_iff.1 hps⟩
  rw [writtenText, List.cons_append, h]
  simpa using KeySpelled.mk hw blank_nil blank_nil

theorem intercalate_cons (x : List Char) (xs : List (List Char)) :
    [','].intercalate (x :: xs) = x ++ xs.flatMap (',' :: ·) := by
  induction xs generalizing x with
  | nil => simp [List.intercalate]
  | cons y ys ih =>
    have h : [','].intercalate (x :: y :: ys) = x ++ ',' :: [','].intercalate (y :: ys) := by
      simp [List.intercalate]
    rw [h, ih]
    simp

theorem members_written {ms : List (String × List Char)} {vs : List (String × Value)} (h : Writes ms vs) :
    ∃ ks, Members false ks ((ms.map writtenMember).flatMap (',' :: ·)) ∧ Names ks vs := by
  induction h with
  | nil => exact ⟨[], .nil blank_nil, names_nil⟩
  | @cons name w v ms vs hv _ ih =>
    obtain ⟨ks, hks, hn⟩ := ih
    obtain ⟨k, hk, hname⟩ := keySpelled_written name
    refine ⟨(k, v) :: ks, ?_, names_cons hname hn⟩
    simpa [writtenMember] using Members.cons (.next blank_nil blank_nil) hk hv hks

theorem spells_writtenObject {ms : List (String × List Char)} {vs : List (String × Value)} (h : Writes ms vs) :
    ∃ ks, Spells (.object ks) (writtenObject ms) ∧ Names ks vs := by
  cases h with
  | nil => exact ⟨[], .object (.nil blank_nil), names_nil⟩
  | @cons name w v ms vs hv h =>
    obtain ⟨ks, hks, hn⟩ := members_written h
    obtain ⟨k, hk, hname⟩ := keySpelled_written name
    refine ⟨(k, v) :: ks, ?_, names_cons hname hn⟩
    have hms := Members.cons (.first blank_nil) hk hv hks
    rw [writtenObject, List.map_cons, intercalate_cons]
    simpa [writtenMember] using Spells.object hms

theorem Layout.value?_written {σ ι α : Type} {β : ι → Type} [DecidableEq ι] (L : Layout σ ι β)
    {f : RecordFormat σ α} (hd : ∀ i, L.get i f.draft = none) {ms : List (String × List Char)}
    {vs : List (String × Value)} (hw : Writes ms vs) {d : σ} {a : α}
    (hf : ∀ i, Fills (L.meaning i) (valuesOf (L.name i) vs) none (L.get i d)) (ha : f.finish d = .ok a) :
    ∃ ks, Names ks vs ∧ Spells (.object ks) (writtenObject ms) ∧ L.value? f (.object ks) = some a := by
  obtain ⟨ks, hks, hkeys, hgiven⟩ := spells_writtenObject hw
  have hfill : L.draft? f.draft (.object ks) = some d := by
    refine (L.draft?_eq_some_iff hd).2 ⟨_, .object hkeys, fun i => ?_⟩
    rw [hgiven]
    exact hf i
  refine ⟨ks, ⟨hkeys, hgiven⟩, hks, ?_⟩
  rw [Layout.value?, hfill, Option.bind_some, ha]
  rfl

end Preconditions.Json
