import Preconditions.Proofs.Logging.Filters
import Preconditions.Proofs.Logging.Levels

/-!
# How directives are spelled

A level is spelled by its name or by its number, a directive for the events of a target as `target=level`, and a filter
as directives with commas between them.
-/

namespace Preconditions.Logging

/-! ## Levels -/

/-- The spellings of a level: its name in any case, or its number, with any zeros and a plus sign before it. -/
inductive Level.Spelled (l : Level) : List Char → Prop
  | name {word : List Char} (h : Text.lowered word = l.name) : Spelled l word
  | number {digits : List Char} (hne : digits ≠ []) (hd : ∀ d ∈ digits, d.isDigit = true)
      (hv : Level.all[Level.digitsValue digits]? = some l) : Spelled l digits
  | signed {digits : List Char} (hne : digits ≠ []) (hd : ∀ d ∈ digits, d.isDigit = true)
      (hv : Level.all[Level.digitsValue digits]? = some l) : Spelled l ('+' :: digits)

namespace Level

variable {l : Level} {word : List Char}

theorem ofDigits?_of_digits {digits : List Char} (hne : digits ≠ []) (hd : ∀ d ∈ digits, d.isDigit = true) :
    ofDigits? digits = all[digitsValue digits]? :=
  if_pos ⟨hne, List.all_eq_true.2 hd⟩

theorem ofNumber?_of_digits {digits : List Char} (hne : digits ≠ []) (hd : ∀ d ∈ digits, d.isDigit = true) :
    ofNumber? digits = all[digitsValue digits]? := by
  rw [← ofDigits?_of_digits hne hd]
  unfold ofNumber?
  split
  · exact absurd (hd '+' (by simp)) (by decide)
  · rfl

theorem Spelled.ofWord? (h : l.Spelled word) : ofWord? word = some l := by
  cases h with
  | name h => exact ofWord?_of_lowered h
  | number hne hd hv => rw [Level.ofWord?, ofNumber?_of_digits hne hd, hv, Option.some_or]
  | signed hne hd hv => rw [Level.ofWord?, ofNumber?, ofDigits?_of_digits hne hd, hv, Option.some_or]

theorem Spelled.ne_nil (h : l.Spelled word) : word ≠ [] := by
  cases h with
  | name h => exact ne_nil_of_lowered h
  | number hne hd hv => exact hne
  | signed hne hd hv => exact List.cons_ne_nil _ _

theorem Spelled.comma_notMem (h : l.Spelled word) : ',' ∉ word := by
  intro hc
  cases h with
  | name h => exact absurd (isAlpha_of_lowered h _ hc) (by decide)
  | number hne hd hv => exact absurd (hd _ hc) (by decide)
  | signed hne hd hv =>
    rcases List.mem_cons.1 hc with hc | hc
    · cases hc
    · exact absurd (hd _ hc) (by decide)

end Level

/-! ## Directives -/

namespace Directive

theorem comma_notMem_assigned {target word : List Char} (hp : ∀ c ∈ target, isPlain c = true) (hw : ',' ∉ word) :
    ',' ∉ target ++ '=' :: word := by
  have ht : ',' ∉ target := fun h => absurd (hp _ h) (by decide)
  simp [ht, hw]

/-! A text that is not shifted by whitespace in front stands in the piece where it stands in the stripped piece. -/

theorem textAt?_append (s t u : List Char) : textAt? (s ++ t) (s ++ u) u = some t := by
  rw [textAt?, Text.byteCount_append, Nat.add_sub_cancel, Text.splitBytes?_append, Option.map_some]

theorem textBetween?_append (s t u : List Char) : textBetween? (s ++ t) (s ++ u) (s ++ u) u = some s := by
  have hstart : textAt? (s ++ t) (s ++ u) (s ++ u) = some (s ++ t) := textAt?_append [] (s ++ t) (s ++ u)
  rw [textBetween?, hstart, Option.bind_some, Text.byteCount_append, Nat.add_sub_cancel, Text.splitBytes?_append,
    Option.map_some]

section
variable {target : List Char} (hne : target ≠ []) (hp : ∀ c ∈ target, isPlain c = true)
include hne hp

theorem stripped_assigned (word : List Char) :
    Text.stripped (target ++ '=' :: word) = target ++ '=' :: Text.strippedEnd word := by
  obtain ⟨c, t, rfl⟩ := List.exists_cons_of_ne_nil hne
  have hc : Text.isWhitespace c = false := isWhitespace_of_isPlain (hp c (by simp))
  rw [Text.stripped, List.cons_append, List.dropWhile_cons_of_neg (by simp [hc]), ← List.cons_append,
    Text.strippedEnd_append_cons (by decide)]

theorem ofPiece?_assigned (word : List Char) :
    ofPiece? (target ++ '=' :: word) = (level? word).map fun l => ⟨target, .all, l⟩ := by
  have hhead : (target ++ '=' :: Text.strippedEnd word).head?.any canStart = true := by
    obtain ⟨c, t, rfl⟩ := List.exists_cons_of_ne_nil hne
    exact canStart_of_isPlain (hp c (by simp))
  have hdrop : (target ++ '=' :: Text.strippedEnd word).dropWhile inTarget = '=' :: Text.strippedEnd word := by
    rw [List.dropWhile_append_of_pos fun c hc => inTarget_of_isPlain (hp c hc)]
    rfl
  have hword : textAt? (target ++ '=' :: word) (target ++ '=' :: Text.strippedEnd word) (Text.strippedEnd word) =
      some word := by
    have h := textAt?_append (target ++ ['=']) word (Text.strippedEnd word)
    simpa only [List.append_assoc, List.singleton_append] using h
  rw [ofPiece?, stripped_assigned hne hp]
  simp only [hhead, hdrop, Bool.not_true, Bool.false_eq_true, if_false, textBetween?_append, Option.bind_some,
    if_true, withLevel?, hword]

theorem target_of_assigned {word : List Char} {d : Directive} (h : ofPiece? (target ++ '=' :: word) = some d) :
    d.target = target := by
  rw [ofPiece?_assigned hne hp] at h
  obtain ⟨l, -, rfl⟩ := Option.map_eq_some_iff.1 h
  rfl

theorem ofPiece?_spelled {l : Level} {word : List Char} (h : l.Spelled word) :
    ofPiece? (target ++ '=' :: word) = some ⟨target, .all, l⟩ := by
  rw [ofPiece?_assigned hne hp, level?, if_neg h.ne_nil, h.ofWord?, Option.map_some]

end

end Directive

/-! ## Filters -/

namespace Filter

/-- A piece put into a text at a place between its pieces: before the first, after the last, or at a comma. -/
inductive Inserted (piece : List Char) : List Char → List Char → Prop
  | alone : Inserted piece [] piece
  | first (text : List Char) : Inserted piece text (piece ++ ',' :: text)
  | last (text : List Char) : Inserted piece text (text ++ ',' :: piece)
  | between (before after : List Char) :
      Inserted piece (before ++ ',' :: after) (before ++ ',' :: (piece ++ ',' :: after))

theorem Inserted.pieces_eq {piece text text' : List Char} (h : Inserted piece text text') (hc : ',' ∉ piece)
    (hne : piece ≠ []) : ∃ ps qs, pieces text = ps ++ qs ∧ pieces text' = ps ++ piece :: qs := by
  have hp := pieces_eq_singleton hc hne
  cases h with
  | alone => exact ⟨[], [], pieces_nil, hp⟩
  | first => exact ⟨[], _, rfl, by rw [pieces_append_comma, hp]; rfl⟩
  | last => exact ⟨_, [], (List.append_nil _).symm, by rw [pieces_append_comma, hp]⟩
  | between before after =>
    refine ⟨pieces before, pieces after, pieces_append_comma _ _, ?_⟩
    rw [pieces_append_comma, pieces_append_comma, hp]
    rfl

theorem Inserted.lenient_eq {piece text text' : List Char} (h : Inserted piece text text') (hc : ',' ∉ piece)
    (hne : piece ≠ []) {d : Directive} (hd : Directive.ofPiece? piece = some d) :
    ∃ f g, lenient text = f ++ g ∧ lenient text' = f ++ d :: g := by
  obtain ⟨ps, qs, hps, hqs⟩ := h.pieces_eq hc hne
  refine ⟨ps.filterMap Directive.ofPiece?, qs.filterMap Directive.ofPiece?, ?_, ?_⟩
  · rw [lenient, hps, List.filterMap_append]
  · rw [lenient, hqs, List.filterMap_append, List.filterMap_cons_some hd]

theorem Inserted.wellFormed {piece text text' : List Char} (h : Inserted piece text text') (hc : ',' ∉ piece)
    (hne : piece ≠ []) {d : Directive} (hd : Directive.ofPiece? piece = some d) (ht : WellFormed text) :
    WellFormed text' := by
  obtain ⟨ps, qs, hps, hqs⟩ := h.pieces_eq hc hne
  intro p hp
  rw [hqs] at hp
  rcases List.mem_append.1 hp with hp | hp
  · exact ht p (by simp [hps, hp])
  · rcases List.mem_cons.1 hp with rfl | hp
    · rw [hd, Option.isSome_some]
    · exact ht p (by simp [hps, hp])

end Filter

end Preconditions.Logging
