import Preconditions.Proofs.Json.Conflicts

/-!
# Members in their place

The text of an object falls into what stands before the value of a member, the value, and what stands after it. Another
value may be put in its place, and what the other members give stays as it is.
-/

namespace Preconditions.Json

/-- What stands before the value of a member with the name and after it, in the text of an object. -/
inductive Frame (name : String) : List Char → List Char → Prop where
  | mk {ms ms' : List (List Piece × Value)} {k : List Piece} {s b c w d : List Char} : Opened ms k s →
      Decodes k name.toList → Blank b → Blank c → Members false ms' w → Blank d →
      Frame name (s ++ b ++ ':' :: c) (w ++ '}' :: d)

theorem members_splice {isFirst : Bool} {ms ms' : List (List Piece × Value)} {k : List Piece} {v : Value}
    {w g x y w' : List Char} (hw : Members isFirst ms w) (hg : Gap (isFirst && ms.isEmpty) g) (hk : KeySpelled k x)
    (hv : Spells v y) (hw' : Members false ms' w') :
    Members isFirst (ms ++ (k, v) :: ms') (w ++ g ++ x ++ y ++ w') := by
  induction ms generalizing isFirst w with
  | nil =>
    rcases hw with hb | _
    rw [List.isEmpty_nil, Bool.and_true] at hg
    exact .cons (gap_of_blank hb hg) hk hv hw'
  | cons m ms ih =>
    rcases hw with _ | ⟨hg₁, hk₁, hv₁, hw₁⟩
    have hrest := ih hw₁ (by simpa using hg)
    simpa using Members.cons hg₁ hk₁ hv₁ hrest

theorem Frame.document {name : String} {before after : List Char} (h : Frame name before after) :
    ∃ ms k ms', Decodes k name.toList ∧
      ∀ v w, Spells v w → Document (.object (ms ++ (k, v) :: ms')) (before ++ w ++ after) := by
  obtain ⟨ho, hk, hc, hc', hw', hd⟩ := h
  rename_i ms ms' k s b c w d
  obtain ⟨hb, hw, hg, hx⟩ := ho
  refine ⟨ms, k, ms', hk, fun v y hv => ?_⟩
  have hms := members_splice hw (by simpa using hg) (.mk hx hc hc') hv hw'
  simpa using Document.mk hb (.object hms) hd

theorem given_append (name : String) (ms ms' : List (List Piece × Value)) :
    given name (ms ++ ms') = given name ms ++ given name ms' := by simp [given]

theorem given_splice {name other : String} {k : List Piece} (hk : Decodes k name.toList) (h : other ≠ name)
    (ms ms' : List (List Piece × Value)) (v v' : Value) :
    given other (ms ++ (k, v) :: ms') = given other (ms ++ (k, v') :: ms') := by
  have hk' : ¬ Decodes k other.toList := fun ho => h (String.toList_injective (decodes_inj ho hk))
  rw [given_append, given_append, given_cons_of_not hk', given_cons_of_not hk']

theorem keysDecode_splice {k : List Piece} {ms ms' : List (List Piece × Value)} {v : Value}
    (h : KeysDecode (ms ++ (k, v) :: ms')) (v' : Value) : KeysDecode (ms ++ (k, v') :: ms') := by
  simp only [KeysDecode, List.forall_mem_append, List.forall_mem_cons] at h ⊢
  exact h

theorem setting_splice {α : Type} {M : Value → α → Prop} {default a : α} {us vs : List Value} {v : Value} :
    Setting M default (us ++ v :: vs) a ↔ us = [] ∧ vs = [] ∧ M v a := by
  constructor
  · intro h
    cases us with
    | nil =>
      rcases h with _ | h
      exact ⟨rfl, rfl, h⟩
    | cons u us => cases us <;> nomatch h
  · intro hx
    obtain ⟨rfl, rfl, h⟩ := hx
    exact .present h

end Preconditions.Json
