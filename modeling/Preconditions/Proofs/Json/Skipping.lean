import Preconditions.Json.Skipping
import Preconditions.Proofs.Json.Numbers
import Preconditions.Proofs.Json.Texts

/-!
# Skipped values against the grammar

Skipping passes over every value of the grammar and over nothing else. The stack of open brackets is read as
what it still asks of the text: for each bracket its further items and its closing character.
-/

namespace Preconditions.Json

/-! ## One step -/

theorem skip_value_eq {s t : List Char} {c : Char} (opened : List Bracket) (h : skipBlanks s = c :: t) :
    skip .value opened s =
      if c = '[' then skip (.first .list) opened t
      else if c = '{' then skip (.first .object) opened t
      else (skipScalar (c :: t)).andThen fun _ r => skip .more opened r := by
  rw [skip]
  split
  · rename_i h'; rw [h] at h'; cases h'
  · rename_i c' t' h'
    rw [h] at h'
    cases h'
    split
    · rfl
    split
    · rfl
    · split <;> rename_i h' <;> rw [h'] <;> rfl

theorem skip_first_eq {s t : List Char} {c : Char} (b : Bracket) (opened : List Bracket)
    (h : skipBlanks s = c :: t) :
    skip (.first b) opened s =
      if c = b.closing then skip .more opened t
      else (skipKey b (c :: t)).andThen fun _ r => skip .value (b :: opened) r := by
  rw [skip]
  split
  · rename_i h'; rw [h] at h'; cases h'
  · rename_i c' t' h'
    rw [h] at h'
    cases h'
    split
    · rfl
    · split <;> rename_i h' <;> rw [h'] <;> rfl

theorem skip_more_eq {s t : List Char} {c : Char} (b : Bracket) (opened : List Bracket)
    (h : skipBlanks s = c :: t) :
    skip .more (b :: opened) s =
      if c = ',' then (skipKey b t).andThen fun _ r => skip .value (b :: opened) r
      else if c = b.closing then skip .more opened t
      else .error (.next b.separation (c :: t)) := by
  rw [skip]
  split
  · rename_i h'; rw [h] at h'; cases h'
  · rename_i c' t' h'
    rw [h] at h'
    cases h'
    split
    · split <;> rename_i h' <;> rw [h'] <;> rfl
    · rfl

/-! ## Scalars and keys -/

theorem skipScalar_sound {s r : List Char} {u : Unit} (h : skipScalar s = .ok (u, r)) :
    ∃ v w, Spells v w ∧ s = w ++ r := by
  unfold skipScalar at h
  split at h
  · cases h
  rename_i c t
  split at h
  · rename_i hc
    obtain ⟨ps, w, hw, rfl⟩ := skipTextBody_sound h
    exact ⟨_, _, .text hw, by simp [hc]⟩
  split at h
  · obtain ⟨l, t', hl, h⟩ := Reading.andThen_eq_ok.1 h
    cases h
    obtain ⟨w, hw, hs⟩ := scanLiteral_sound hl
    exact ⟨_, w, .number hw, hs⟩
  split at h
  · rename_i hc
    exact ⟨_, _, .nullWord, by rw [hc, eq_append_of_word h]; rfl⟩
  split at h
  · rename_i hc
    exact ⟨_, _, .trueWord, by rw [hc, eq_append_of_word h]; rfl⟩
  split at h
  · rename_i hc
    exact ⟨_, _, .falseWord, by rw [hc, eq_append_of_word h]; rfl⟩
  · cases h

theorem skipScalar_number {l : Literal} {w : List Char} (hw : l.Spelled w) {t : List Char} (ht : Stops t) :
    skipScalar (w ++ t) = .ok ((), t) := by
  have hs := scanLiteral_complete .invalidNumber hw ht
  obtain ⟨c, u, rfl, hc⟩ := hw.head
  have hq : c ≠ '"' := by rintro rfl; cases hc
  rw [List.cons_append] at hs ⊢
  rw [skipScalar, if_neg hq, if_pos hc, hs]
  rfl

theorem eq_of_colon {s r : List Char} {u : Unit} (h : colon s = .ok (u, r)) :
    ∃ b, Blank b ∧ s = b ++ ':' :: r := by
  unfold colon at h
  split at h
  · cases h
  · rename_i c t hs
    split at h
    · rename_i hc
      cases h
      rw [hc] at hs
      exact split_of_skipBlanks hs
    · cases h

theorem colon_complete {b : List Char} (hb : Blank b) (t : List Char) : colon (b ++ ':' :: t) = .ok ((), t) := by
  rw [colon, skipBlanks_append_cons hb rfl]
  rfl

def KeyPart : Bracket → List Char → Prop
  | .list, x => x = []
  | .object, x => ∃ k, KeySpelled k x

theorem skipKey_sound {b : Bracket} {s r : List Char} {u : Unit} (h : skipKey b s = .ok (u, r))
    {g t : List Char} (hg : Blank g) (hr : r = g ++ t) :
    ∃ g' x, Blank g' ∧ KeyPart b x ∧ s = g' ++ x ++ t := by
  unfold skipKey at h
  split at h
  · cases h
    exact ⟨g, [], hg, rfl, by simp [hr]⟩
  · split at h
    · cases h
    rename_i c u hs
    obtain ⟨b, hb, rfl⟩ := split_of_skipBlanks hs
    split at h
    · rename_i hc
      obtain ⟨_, v, hv, hk⟩ := Reading.andThen_eq_ok.1 h
      obtain ⟨k, w, hw, rfl⟩ := skipTextBody_sound hv
      obtain ⟨b', hb', rfl⟩ := eq_of_colon hk
      exact ⟨b, _, hb, ⟨k, .mk hw hb' hg⟩, by simp [hc, hr]⟩
    · cases h

theorem skipKey_complete {b : Bracket} {x : List Char} (hx : KeyPart b x) {g : List Char} (hg : Blank g)
    (t : List Char) :
    ∃ g', Blank g' ∧ skipKey b (g ++ x ++ t) = .ok ((), g' ++ t) := by
  cases b with
  | list =>
    obtain rfl : x = [] := hx
    exact ⟨g, hg, by simp [skipKey]⟩
  | object =>
    obtain ⟨k, hw, hb, hb'⟩ := hx
    rename_i w b b'
    refine ⟨b', hb', ?_⟩
    have hs : skipBlanks (g ++ ('"' :: w ++ '"' :: b ++ ':' :: b') ++ t) =
        '"' :: (w ++ '"' :: (b ++ ':' :: (b' ++ t))) := by
      simp only [List.append_assoc, List.cons_append]
      exact skipBlanks_append_cons hg rfl _
    rw [skipKey, hs]
    simp only [if_true, skipTextBody_complete hw, Reading.andThen, colon_complete hb]

/-! ## What is skipped is a value -/

def Items (isFirst : Bool) : Bracket → List Char → Prop
  | .list, w => ∃ vs, Elements isFirst vs w
  | .object, w => ∃ ms, Members isFirst ms w

theorem Items.nil {isFirst : Bool} {b : Bracket} {w : List Char} (hw : Blank w) : Items isFirst b w := by
  cases b with
  | list => exact ⟨[], .nil hw⟩
  | object => exact ⟨[], .nil hw⟩

theorem Items.cons {isFirst : Bool} {b : Bracket} {v : Value} {g x w t : List Char} (hg : Gap isFirst g)
    (hx : KeyPart b x) (hv : Spells v w) (ht : Items false b t) : Items isFirst b (g ++ x ++ w ++ t) := by
  cases b with
  | list =>
    obtain rfl : x = [] := hx
    obtain ⟨vs, ht⟩ := ht
    exact ⟨v :: vs, by simpa using Elements.cons hg hv ht⟩
  | object =>
    obtain ⟨k, hx⟩ := hx
    obtain ⟨ms, ht⟩ := ht
    exact ⟨(k, v) :: ms, .cons hg hx hv ht⟩

def Closes : List Bracket → List Char → List Char → Prop
  | [], s, r => s = r
  | b :: bs, s, r => ∃ w t, Items false b w ∧ s = w ++ b.closing :: t ∧ Closes bs t r

/-- The text gives what is due, closes the open brackets and goes on with `r`. -/
def Gives (opened : List Bracket) (r : List Char) : Due → List Char → Prop
  | .value, s => ∃ g v w t, Blank g ∧ Spells v w ∧ s = g ++ w ++ t ∧ Closes opened t r
  | .first b, s => ∃ w t, Items true b w ∧ s = w ++ b.closing :: t ∧ Closes opened t r
  | .more, s => Closes opened s r

theorem skip_sound {due : Due} {opened : List Bracket} {s r : List Char} {u : Unit}
    (h : skip due opened s = .ok (u, r)) : Gives opened r due s := by
  fun_induction skip due opened s with
  | case1 => cases h
  | case2 opened s t hs ih =>
    obtain ⟨g, hg, rfl⟩ := split_of_skipBlanks hs
    obtain ⟨w, t', ⟨vs, hw⟩, rfl, ht⟩ := ih h
    exact ⟨g, _, _, t', hg, .list hw, by simp [Bracket.closing], ht⟩
  | case3 opened s t hs _ ih =>
    obtain ⟨g, hg, rfl⟩ := split_of_skipBlanks hs
    obtain ⟨w, t', ⟨ms, hw⟩, rfl, ht⟩ := ih h
    exact ⟨g, _, _, t', hg, .object hw, by simp [Bracket.closing], ht⟩
  | case4 opened s c t hs _ _ _ r' hk ih =>
    obtain ⟨g, hg, rfl⟩ := split_of_skipBlanks hs
    obtain ⟨v, w, hw, hs'⟩ := skipScalar_sound hk
    exact ⟨g, v, w, r', hg, hw, by simp [hs'], ih h⟩
  | case5 => cases h
  | case6 => cases h
  | case7 opened s b t hs ih =>
    obtain ⟨g, hg, rfl⟩ := split_of_skipBlanks hs
    exact ⟨g, t, .nil hg, rfl, ih h⟩
  | case8 opened s b c t hs _ _ r' hk ih =>
    obtain ⟨g, hg, rfl⟩ := split_of_skipBlanks hs
    obtain ⟨g', v, w, t', hg', hv, hr, x, t'', hx, rfl, ht⟩ := ih h
    obtain ⟨g'', y, hg'', hy, hs'⟩ := skipKey_sound hk hg' (hr.trans (List.append_assoc ..))
    refine ⟨_, t'', .cons (.first (blank_append hg hg'')) hy hv hx, ?_, ht⟩
    simp [hs']
  | case9 => cases h
  | case10 => cases h; exact rfl
  | case11 => cases h
  | case12 s b opened t _ r' hk hs ih =>
    obtain ⟨g, hg, rfl⟩ := split_of_skipBlanks hs
    obtain ⟨g', v, w, t', hg', hv, hr, x, t'', hx, rfl, ht⟩ := ih h
    obtain ⟨g'', y, hg'', hy, rfl⟩ := skipKey_sound hk hg' (hr.trans (List.append_assoc ..))
    refine ⟨_, t'', .cons (.next hg hg'') hy hv hx, ?_, ht⟩
    simp
  | case13 => cases h
  | case14 s b opened t hs _ ih =>
    obtain ⟨g, hg, rfl⟩ := split_of_skipBlanks hs
    exact ⟨g, t, .nil hg, rfl, ih h⟩
  | case15 => cases h

/-! ## Every value is skipped -/

theorem skip_scalar {v : Value} {g w t : List Char} (opened : List Bracket) (hg : Blank g) (hv : Spells v w)
    (h : skipScalar (w ++ t) = .ok ((), t)) (hl : v.opens '[' = false) (ho : v.opens '{' = false) :
    skip .value opened (g ++ w ++ t) = skip .more opened t := by
  have hs := hv.skipBlanks_eq hg t
  obtain ⟨c, u, rfl, hc⟩ := hv.head
  have h1 : c ≠ '[' := by rintro rfl; rw [hl] at hc; cases hc
  have h2 : c ≠ '{' := by rintro rfl; rw [ho] at hc; cases hc
  rw [List.cons_append] at h hs
  rw [skip_value_eq opened hs, if_neg h1, if_neg h2, h]
  rfl

def skipItems (isFirst : Bool) (b : Bracket) (opened : List Bracket) (s : List Char) : Reading Unit :=
  if isFirst then skip (.first b) opened s else skip .more (b :: opened) s

theorem skipItems_close {isFirst : Bool} {b : Bracket} {g : List Char} (hg : Blank g) (opened : List Bracket)
    (t : List Char) : skipItems isFirst b opened (g ++ b.closing :: t) = skip .more opened t := by
  have hb : isBlank b.closing = false := by cases b <;> rfl
  have hs := skipBlanks_append_cons hg hb t
  cases isFirst with
  | true => exact (skip_first_eq b opened hs).trans (if_pos rfl)
  | false =>
    refine (skip_more_eq b opened hs).trans ?_
    rw [if_neg (by cases b <;> decide), if_pos rfl]

theorem opens_closing (v : Value) : v.opens ']' = false := by
  cases v with
  | boolean b => cases b <;> rfl
  | _ => rfl

theorem item_head {b : Bracket} {v : Value} {x w : List Char} (hx : KeyPart b x) (hv : Spells v w) :
    ∃ c u, x ++ w = c :: u ∧ isBlank c = false ∧ c ≠ b.closing := by
  cases b with
  | list =>
    obtain rfl : x = [] := hx
    obtain ⟨c, u, rfl, hc⟩ := hv.head
    refine ⟨c, u, rfl, v.isBlank_of_opens hc, ?_⟩
    rintro rfl
    cases (opens_closing v).symm.trans hc
  | object =>
    obtain ⟨k, hk⟩ := hx
    cases hk with
    | mk => exact ⟨'"', _, rfl, rfl, by decide⟩

theorem skipItems_item {isFirst : Bool} {b : Bracket} {v : Value} {g x w : List Char} (hg : Gap isFirst g)
    (hx : KeyPart b x) (hv : Spells v w) (opened : List Bracket) (t : List Char) :
    ∃ g', Blank g' ∧
      skipItems isFirst b opened (g ++ x ++ w ++ t) = skip .value (b :: opened) (g' ++ w ++ t) := by
  cases hg with
  | first hg =>
    obtain ⟨c, u, hu, hc, hb⟩ := item_head hx hv
    obtain ⟨g', hg', hk⟩ := skipKey_complete hx blank_nil (w ++ t)
    have hs : skipBlanks (g ++ x ++ w ++ t) = c :: (u ++ t) := by
      rw [List.append_assoc g x w, hu, List.append_assoc]
      exact skipBlanks_append_cons hg hc (u ++ t)
    have hu' : [] ++ x ++ (w ++ t) = c :: (u ++ t) := by rw [List.nil_append, ← List.append_assoc, hu]; rfl
    rw [hu'] at hk
    refine ⟨g', hg', (skip_first_eq b opened hs).trans ?_⟩
    rw [if_neg hb, hk, List.append_assoc]
    rfl
  | @next g g₂ hg hg₂ =>
    obtain ⟨g', hg', hk⟩ := skipKey_complete hx hg₂ (w ++ t)
    have hs : skipBlanks (g ++ ',' :: g₂ ++ x ++ w ++ t) = ',' :: (g₂ ++ x ++ (w ++ t)) := by
      simp only [List.append_assoc, List.cons_append]
      exact skipBlanks_append_cons hg rfl _
    refine ⟨g', hg', (skip_more_eq b opened hs).trans ?_⟩
    rw [if_pos rfl, hk, List.append_assoc]
    rfl

theorem Gap.stops {g : List Char} (hg : Gap false g) (t : List Char) : Stops (g ++ t) := by
  cases hg with
  | next hg hg₂ =>
    rw [List.append_assoc]
    exact stops_append hg (stops_cons rfl (by decide))

theorem Elements.stops {vs : List Value} {w : List Char} (h : Elements false vs w) (t : List Char) :
    Stops (w ++ ']' :: t) := by
  cases h with
  | nil hw => exact stops_append hw (stops_cons rfl (by decide))
  | cons hg _ _ => simpa only [List.append_assoc] using hg.stops _

theorem Members.stops_append {ms : List (List Piece × Value)} {w s : List Char} (h : Members false ms w)
    (hs : Stops s) : Stops (w ++ s) := by
  cases h with
  | nil hw => exact Json.stops_append hw hs
  | cons hg _ _ _ => simpa only [List.append_assoc] using hg.stops _

theorem Members.stops {ms : List (List Piece × Value)} {w : List Char} (h : Members false ms w) (t : List Char) :
    Stops (w ++ '}' :: t) :=
  h.stops_append (stops_cons rfl (by decide))

mutual

theorem skip_value {v : Value} {w : List Char} (h : Spells v w) (opened : List Bracket) {g t : List Char}
    (hg : Blank g) (ht : Stops t) : skip .value opened (g ++ w ++ t) = skip .more opened t := by
  match h with
  | .nullWord => exact skip_scalar opened hg .nullWord (word_append nullTail t) rfl rfl
  | .trueWord => exact skip_scalar opened hg .trueWord (word_append trueTail t) rfl rfl
  | .falseWord => exact skip_scalar opened hg .falseWord (word_append falseTail t) rfl rfl
  | .number hw => exact skip_scalar opened hg (.number hw) (skipScalar_number hw ht) rfl rfl
  | .text hw =>
    refine skip_scalar opened hg (.text hw) ?_ rfl rfl
    rw [List.cons_append, List.cons_append, List.append_assoc, skipScalar, if_pos rfl]
    exact skipTextBody_complete hw t
  | @Spells.list vs w hw =>
    have hs : skipBlanks (g ++ ('[' :: w ++ [']']) ++ t) = '[' :: (w ++ ']' :: t) := by
      rw [(Spells.list hw).skipBlanks_eq hg]; simp
    rw [skip_value_eq opened hs, if_pos rfl]
    exact skip_elements hw opened t
  | @Spells.object ms w hw =>
    have hs : skipBlanks (g ++ ('{' :: w ++ ['}']) ++ t) = '{' :: (w ++ '}' :: t) := by
      rw [(Spells.object hw).skipBlanks_eq hg]; simp
    rw [skip_value_eq opened hs, if_neg (by decide), if_pos rfl]
    exact skip_members hw opened t

theorem skip_elements {isFirst : Bool} {vs : List Value} {w : List Char} (h : Elements isFirst vs w)
    (opened : List Bracket) (t : List Char) :
    skipItems isFirst .list opened (w ++ ']' :: t) = skip .more opened t := by
  match h with
  | .nil hg => exact skipItems_close hg opened t
  | @Elements.cons _ v vs g w u hg hv hu =>
    obtain ⟨g', hg', hk⟩ := skipItems_item (b := .list) hg rfl hv opened (u ++ ']' :: t)
    have ih := skip_elements hu opened t
    rw [List.append_nil] at hk
    rw [List.append_assoc, hk, skip_value hv (.list :: opened) hg' (hu.stops t)]
    exact ih

theorem skip_members {isFirst : Bool} {ms : List (List Piece × Value)} {w : List Char}
    (h : Members isFirst ms w) (opened : List Bracket) (t : List Char) :
    skipItems isFirst .object opened (w ++ '}' :: t) = skip .more opened t := by
  match h with
  | .nil hg => exact skipItems_close hg opened t
  | @Members.cons _ k v ms g x w u hg hx hv hu =>
    obtain ⟨g', hg', hk⟩ := skipItems_item (b := .object) hg ⟨k, hx⟩ hv opened (u ++ '}' :: t)
    have ih := skip_members hu opened t
    rw [List.append_assoc, hk, skip_value hv (.object :: opened) hg' (hu.stops t)]
    exact ih

end

/-! ## Skipping one value -/

theorem skipValue_sound {s r : List Char} {u : Unit} (h : skipValue s = .ok (u, r)) :
    ∃ g v w, Blank g ∧ Spells v w ∧ s = g ++ w ++ r := by
  obtain ⟨g, v, w, t, hg, hv, hs, ht⟩ := skip_sound h
  obtain rfl : t = r := ht
  exact ⟨g, v, w, hg, hv, hs⟩

theorem skipValue_complete {v : Value} {g w t : List Char} (hg : Blank g) (hv : Spells v w) (ht : Stops t) :
    skipValue (g ++ w ++ t) = .ok ((), t) := by
  rw [skipValue, skip_value hv [] hg ht, skip]

end Preconditions.Json
