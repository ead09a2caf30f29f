import Preconditions.Proofs.Config.Validity
import Preconditions.Proofs.Logging.Runs

/-!
# Levels as filters

The name of a level, in any case, is read as a filter with one directive: that level for all targets. So a valid
configuration shows the events of rejections when its level is one of the two with enough detail.
-/

namespace Preconditions.Logging

/-! ## Characters -/

theorem isAlpha_of_toLower {c : Char} (h : c.toLower.isAlpha = true) : c.isAlpha = true := by
  unfold Char.toLower at h
  split at h
  · rename_i hc
    exact Bool.or_eq_true_iff.2 (.inl (decide_eq_true hc))
  · exact h

theorem isDigit_of_isAlpha {c : Char} (h : c.isAlpha = true) : c.isDigit = false := by
  have := Text.toNat_of_isAlpha h
  rw [Bool.eq_false_iff]
  intro hd
  have h9 : c.toNat ≤ 57 := (Char.isDigit_iff_toNat.1 hd).2
  omega

namespace Directive

def isPlain (c : Char) : Bool := c.isAlphanum || c == '-' || c == '_' || c == ':'

theorem toNat_of_isPlain {c : Char} (h : isPlain c = true) : 0x20 < c.toNat ∧ c.toNat < 0x7f := by
  simp only [isPlain, Char.isAlphanum, Bool.or_eq_true, beq_iff_eq] at h
  rcases h with (((ha | hd) | rfl) | rfl) | rfl
  · have := Text.toNat_of_isAlpha ha
    omega
  · have hd : 48 ≤ c.toNat ∧ c.toNat ≤ 57 := Char.isDigit_iff_toNat.1 hd
    omega
  · decide
  · decide
  · decide

theorem canStart_of_isPlain {c : Char} (h : isPlain c = true) : canStart c = true := by
  simp only [isPlain, Bool.or_eq_true, beq_iff_eq] at h
  rcases h with ((ha | rfl) | rfl) | rfl
  · simp [canStart, Text.isAlphanumeric_of_isAlphanum ha]
  · decide
  · decide
  · decide

theorem ne_of_isPlain {c d : Char} (h : isPlain c = true) (hd : isPlain d = false) : c ≠ d := by
  rintro rfl
  rw [h] at hd
  cases hd

theorem inTarget_of_isPlain {c : Char} (h : isPlain c = true) : inTarget c = true := by
  have he := ne_of_isPlain h (d := '=') (by decide)
  have hb := ne_of_isPlain h (d := '[') (by decide)
  simp [inTarget, he, hb]

theorem isWhitespace_of_isPlain {c : Char} (h : isPlain c = true) : Text.isWhitespace c = false :=
  Text.isWhitespace_of_visible (toNat_of_isPlain h)

theorem isPlain_of_isAlpha {c : Char} (h : c.isAlpha = true) : isPlain c = true := by
  simp [isPlain, Char.isAlphanum, h]

end Directive

/-! ## Names of levels -/

theorem Level.isAlpha_name (l : Level) : ∀ c ∈ l.name, c.isAlpha = true := by
  have h : ∀ l : Level, l.name.all Char.isAlpha = true := by
    intro l
    cases l <;> rfl
  exact List.all_eq_true.1 (h l)

section
variable {word : List Char} {l : Level} (h : Text.lowered word = l.name)
include h

theorem isAlpha_of_lowered : ∀ c ∈ word, c.isAlpha = true := by
  intro c hc
  have hl : c.toLower ∈ l.name := h ▸ List.mem_map_of_mem hc
  exact isAlpha_of_toLower (l.isAlpha_name _ hl)

theorem isPlain_of_lowered : ∀ c ∈ word, Directive.isPlain c = true :=
  fun c hc => Directive.isPlain_of_isAlpha (isAlpha_of_lowered h c hc)

theorem ne_nil_of_lowered : word ≠ [] := by
  rintro rfl
  cases l <;> cases h

theorem ofNumber?_of_lowered : Level.ofNumber? word = none := by
  have ha := isAlpha_of_lowered h
  unfold Level.ofNumber?
  split
  · exact absurd (ha '+' (by simp)) (by decide)
  · have hn : ¬ (word ≠ [] ∧ word.all Char.isDigit = true) := by
      intro hx
      obtain ⟨hne, hd⟩ := hx
      obtain ⟨c, t, rfl⟩ := List.exists_cons_of_ne_nil hne
      simp [isDigit_of_isAlpha (ha c (by simp))] at hd
    rw [Level.ofDigits?, if_neg hn]

theorem ofWord?_of_lowered : Level.ofWord? word = some l := by
  rw [Level.ofWord?, ofNumber?_of_lowered h, Option.none_or, Level.ofName?, h]
  cases l <;> rfl

theorem stripped_of_lowered : Text.stripped word = word := by
  have hw := isPlain_of_lowered h
  have hany : ∀ o : Option Char, (∀ c, o = some c → c ∈ word) → o.any Text.isWhitespace = false := by
    intro o ho
    cases o with
    | none => rfl
    | some c => exact Directive.isWhitespace_of_isPlain (hw c (ho c rfl))
  exact Text.stripped_eq_self (hany _ fun c => List.mem_of_head?) (hany _ fun c => List.mem_of_getLast?)

theorem ofPiece?_of_lowered : Directive.ofPiece? word = some ⟨[], .all, l⟩ := by
  have hw := isPlain_of_lowered h
  have hhead : word.head?.any Directive.canStart = true := by
    obtain ⟨c, t, rfl⟩ := List.exists_cons_of_ne_nil (ne_nil_of_lowered h)
    exact Directive.canStart_of_isPlain (hw c (by simp))
  have hdrop : word.dropWhile Directive.inTarget = [] := by
    have ht : (word ++ []).dropWhile Directive.inTarget = [] :=
      List.dropWhile_append_of_pos fun c hc => Directive.inTarget_of_isPlain (hw c hc)
    rwa [List.append_nil] at ht
  simp [Directive.ofPiece?, stripped_of_lowered h, hhead, hdrop, Directive.ofWord, ofWord?_of_lowered h]

theorem lenient_of_lowered : Filter.lenient word = [⟨[], .all, l⟩] := by
  have hcomma : ',' ∉ word := fun hc => absurd (isPlain_of_lowered h _ hc) (by decide)
  exact Filter.lenient_eq_singleton hcomma (ne_nil_of_lowered h) (ofPiece?_of_lowered h)

end

theorem levelFor_one (l : Level) (target : List Char) (fields : List (List Char)) :
    Filter.levelFor [⟨[], .all, l⟩] target fields = l := by
  simp [Filter.levelFor, Filter.decide?, Directive.covers, Scope.includes]

/-! ## Configured levels -/

def showsRejections (o : Observability) : Bool :=
  Text.sameIgnoringCase o.logLevel "debug" || Text.sameIgnoringCase o.logLevel "trace"

theorem exists_level {level : String} (h : Config.knownLevel level = true) :
    ∃ l : Level, Text.lowered level.toList = l.name := by
  obtain ⟨word, hw, hs⟩ := Config.knownLevel_iff.1 h
  have hl : ∀ word ∈ Config.levels, ∃ l : Level, Text.lowered word.toList = l.name := by
    intro word hw
    simp only [Config.levels, List.mem_cons, List.not_mem_nil, or_false] at hw
    rcases hw with rfl | rfl | rfl | rfl | rfl
    · exact ⟨.trace, rfl⟩
    · exact ⟨.debug, rfl⟩
    · exact ⟨.info, rfl⟩
    · exact ⟨.warn, rfl⟩
    · exact ⟨.error, rfl⟩
  rw [Text.sameIgnoringCase_iff.1 hs]
  exact hl word hw

theorem showsEvents_configured {e : Environment} (he : e.filter = none) {o : Observability}
    (ho : Config.knownLevel o.logLevel = true) : (Sink.configured e o).showsEvents = showsRejections o := by
  obtain ⟨l, hl⟩ := exists_level ho
  have hf : Sink.filterOf e o.logLevel = [⟨[], .all, l⟩] := by
    rw [Sink.filterOf, he]
    exact lenient_of_lowered hl
  rw [Sink.showsEvents, Sink.configured, hf, levelFor_one, showsRejections, Text.sameIgnoringCase,
    Text.sameIgnoringCase, hl]
  cases l <;> rfl

/-! ## Valid configurations -/

/-- **Valid levels.** What is loaded is valid; valid levels are the five words; and a process whose first
initialization is by a valid configuration, with no filter in its environment, shows from then on the events of
rejections when the level is `debug` or `trace`, as JSON when the configuration says so. -/
theorem valid_level_decides :
    (∀ text c, (Config.load text).result = .ok c → c.validate.result = .ok ()) ∧
    (∀ e c, (Config.loadEnvironment e).result = .ok c → c.validate.result = .ok ()) ∧
    (∀ c : Config, c.validate.result = .ok () ↔
      ∃ word ∈ ["trace", "debug", "info", "warn", "error"],
        Text.sameIgnoringCase c.observability.logLevel word = true) ∧
    (∀ (c : Config) (e : Environment) (before later : List Step), c.validate.result = .ok () → e.filter = none →
      (∀ s ∈ before, ∃ events, s = .operation events) →
      ∀ k events, later[k]? = some (.operation events) →
        (run e (before ++ .initWith c.observability :: later))[before.length + 1 + k]? =
          some (if showsRejections c.observability then
            events.map (if c.observability.jsonLogs then Format.json else .compact).record
          else [])) ∧
    ∀ (format : Format) (event : Event), Record.Shows event format (format.record event) := by
  refine ⟨fun _ _ => Config.validate_of_load, fun _ _ => Config.validate_of_loadEnvironment,
    fun c => Config.validate_ok_iff.trans Config.knownLevel_iff, ?_, Record.shows_record⟩
  intro c e before later hc he hb k events hk
  have hshow := showsEvents_configured he (Config.validate_ok_iff.1 hc)
  rw [records_after_first hb rfl, hk, Option.map_some, Step.records, Option.map_some, Option.getD_some,
    Sink.records, hshow]
  rfl

/-- A configuration that asks for JSON, one that asks for lines, and one whose level hides the event. -/
theorem valid_level_decides_debug :
    (Config.validate ⟨⟨"Debug", true⟩⟩).result = .ok () ∧
    (run {} [.initWith ⟨"Debug", true⟩, .operation [Rejection.event (.emptyArgument "port")]])[1]? =
      some [.fields ⟨⟨40⟩, .emptyArgument, "port"⟩] ∧
    (Config.validate ⟨⟨"TRACE", false⟩⟩).result = .ok () ∧
    (run {} [.initWith ⟨"TRACE", false⟩, .operation [Rejection.event (.emptyArgument "port\n")]])[1]? =
      some [.line ("DEBUG param_check::messages: parameter_rejected code=PARAM000040 kind=EmptyArgument " ++
        "parameter=\"port\\n\"")] ∧
    (Config.validate ⟨⟨"warn", true⟩⟩).result = .ok () ∧
    (run {} [.initWith ⟨"warn", true⟩, .operation [Rejection.event (.emptyArgument "port")]])[1]? = some [] := by
  have hjson : (Config.validate ⟨⟨"Debug", true⟩⟩).result = .ok () := Config.validate_ok_iff.2 (by decide)
  have hline : (Config.validate ⟨⟨"TRACE", false⟩⟩).result = .ok () := Config.validate_ok_iff.2 (by decide)
  have hhidden : (Config.validate ⟨⟨"warn", true⟩⟩).result = .ok () := Config.validate_ok_iff.2 (by decide)
  obtain ⟨-, -, -, hruns, -⟩ := valid_level_decides
  refine ⟨hjson, ?_, hline, ?_, hhidden, ?_⟩
  · exact hruns ⟨⟨"Debug", true⟩⟩ {} [] [.operation [Rejection.event (.emptyArgument "port")]] hjson rfl (by simp) 0 _
      rfl
  · refine (hruns ⟨⟨"TRACE", false⟩⟩ {} [] [.operation [Rejection.event (.emptyArgument "port\n")]] hline rfl (by simp)
      0 _ rfl).trans ?_
    decide
  · exact hruns ⟨⟨"warn", true⟩⟩ {} [] [.operation [Rejection.event (.emptyArgument "port")]] hhidden rfl (by simp) 0 _
      rfl

end Preconditions.Logging
