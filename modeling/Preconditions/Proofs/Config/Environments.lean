import Preconditions.Proofs.Config.Documents
import Preconditions.Proofs.Text.Utf8

/-!
# Configurations from the environment

The environment gives the result that a document with the same two settings gives. A variable whose bytes are not the
bytes of a text is as good as unset.
-/

namespace Preconditions

/-! ## Variables -/

namespace Environment

def Sets (value : Option ByteArray) (s : String) : Prop :=
  ∃ bytes, value = some bytes ∧ Text.WellFormed bytes.data.toList s.toList

theorem text?_some_iff {bytes : ByteArray} {s : String} : text? (some bytes) = some s ↔ bytes = s.toUTF8 := by
  constructor
  · intro h
    have h : String.fromUTF8? bytes = some s := h
    unfold String.fromUTF8? at h
    split at h
    · cases h
      rfl
    · cases h
  · rintro rfl
    exact text?_toUTF8 s

theorem wellFormed_toUTF8_iff {bytes : ByteArray} {s : String} :
    Text.WellFormed bytes.data.toList s.toList ↔ bytes = s.toUTF8 := by
  rw [Text.wellFormed_iff, Text.utf8_toList, String.toUTF8_eq_toByteArray]
  constructor
  · exact fun h => ByteArray.ext (Array.toList_inj.1 h)
  · rintro rfl
    rfl

theorem text?_eq_some_iff {value : Option ByteArray} {s : String} : text? value = some s ↔ Sets value s := by
  cases value with
  | none =>
    constructor
    · intro h
      cases h
    · intro hx
      obtain ⟨_, h, -⟩ := hx
      cases h
  | some bytes => simp [text?_some_iff, Sets, wellFormed_toUTF8_iff]

theorem text?_eq_none_iff {value : Option ByteArray} : text? value = none ↔ ∀ s, ¬ Sets value s := by
  simp only [Option.eq_none_iff_forall_ne_some, ne_eq, text?_eq_some_iff]

theorem faulty_iff_unset {bytes : ByteArray} : Text.Faulty bytes.data.toList ↔ ∀ s, ¬ Sets (some bytes) s := by
  rw [Text.faulty_iff]
  constructor
  · intro h s hx
    obtain ⟨_, hb, hw⟩ := hx
    cases hb
    exact h _ hw
  · intro h cs hw
    exact h (String.ofList cs) ⟨bytes, rfl, by rwa [String.toList_ofList]⟩

theorem text?_of_faulty {bytes : ByteArray} (h : Text.Faulty bytes.data.toList) : text? (some bytes) = none :=
  text?_eq_none_iff.2 (faulty_iff_unset.1 h)

end Environment

namespace Config

open Environment (Sets text?)

/-! ## What the environment sets -/

structure Reflects (e : Environment) (c : Config) : Prop where
  level : ∀ s, Sets e.level s → c.observability.logLevel = s
  unset : (∀ s, ¬ Sets e.level s) → c.observability.logLevel = "info"
  format : c.observability.jsonLogs = true ↔ ∃ s, Sets e.format s ∧ Text.sameIgnoringCase s "json" = true

theorem reflects_ofEnvironment (e : Environment) : Reflects e ⟨.ofEnvironment e⟩ where
  level s h := by
    show (text? e.level).getD _ = s
    rw [Environment.text?_eq_some_iff.2 h, Option.getD_some]
  unset h := by
    show (text? e.level).getD _ = "info"
    rw [Environment.text?_eq_none_iff.2 h, Option.getD_none]
  format := by
    show ((text? e.format).map Environment.asksForJson).getD false = true ↔ _
    simp only [← Environment.text?_eq_some_iff]
    cases text? e.format with
    | none => simp
    | some s => simp [Environment.asksForJson, Environment.jsonName]

theorem Reflects.unique {e : Environment} {c c' : Config} (h : Reflects e c) (h' : Reflects e c') : c = c' := by
  obtain ⟨level, json⟩ := c
  obtain ⟨level', json'⟩ := c'
  obtain rfl : json = json' := Bool.eq_iff_iff.2 (h.format.trans h'.format.symm)
  by_cases hs : ∃ s, Sets e.level s
  · obtain ⟨s, hs⟩ := hs
    obtain rfl : level = s := h.level s hs
    obtain rfl : level' = level := h'.level level hs
    rfl
  · have hu : ∀ s, ¬ Sets e.level s := fun s h => hs ⟨s, h⟩
    obtain rfl : level = "info" := h.unset hu
    obtain rfl : level' = "info" := h'.unset hu
    rfl

theorem reflects_iff {e : Environment} {c : Config} : Reflects e c ↔ c = ⟨.ofEnvironment e⟩ := by
  constructor
  · exact fun h => h.unique (reflects_ofEnvironment e)
  · rintro rfl
    exact reflects_ofEnvironment e

/-! ## Loading -/

theorem load_eq_validated (c : Config) : load c.written = c.validated := by
  rw [load, ofJson_written]

theorem loadEnvironment_congr {e e' : Environment} (hl : text? e.level = text? e'.level)
    (hf : text? e.format = text? e'.format) : loadEnvironment e = loadEnvironment e' := by
  rw [loadEnvironment, loadEnvironment, Observability.ofEnvironment, Observability.ofEnvironment, hl, hf]

theorem eq_of_validated_ok {c d : Config} (h : c.validated.result = .ok d) : d = c := by
  rw [validated_result] at h
  cases hv : c.validate.result with
  | ok u =>
    rw [hv] at h
    cases h
    rfl
  | error r =>
    rw [hv] at h
    cases h

theorem reflects_of_loadEnvironment {e : Environment} {c : Config} (h : (loadEnvironment e).result = .ok c) :
    Reflects e c := reflects_iff.2 (eq_of_validated_ok h)

theorem validate_congr {c c' : Config} (h : c.observability.logLevel = c'.observability.logLevel) :
    c.validate = c'.validate := by
  rw [validate, validate, h]

theorem loadEnvironment_error_iff {e e' : Environment} (h : e.level = e'.level) {r : Rejection} :
    (loadEnvironment e).result = .error r ↔ (loadEnvironment e').result = .error r := by
  have hl : (Observability.ofEnvironment e).logLevel = (Observability.ofEnvironment e').logLevel := by
    rw [Observability.ofEnvironment, Observability.ofEnvironment, h]
  rw [loadEnvironment, loadEnvironment, validated_error_iff, validated_error_iff,
    @validate_congr ⟨.ofEnvironment e⟩ ⟨.ofEnvironment e'⟩ hl]

/-- **The environment is a document.** There is one configuration that reflects the environment, and loading from the
environment is loading its document, to the last event. A variable with a fault in its bytes counts as unset, no
format brings an error or takes one away, and each variable sets its own field alone. -/
theorem loadEnvironment_eq_load (e : Environment) :
    (∃ c, Reflects e c ∧ (∀ c', Reflects e c' → c' = c) ∧ loadEnvironment e = load c.written) ∧
    (∀ bytes, (Text.Faulty bytes.data.toList ↔ ∀ s, ¬ Sets (some bytes) s) ∧
      (Text.Faulty bytes.data.toList →
        loadEnvironment { e with level := some bytes } = loadEnvironment { e with level := none } ∧
        loadEnvironment { e with format := some bytes } = loadEnvironment { e with format := none })) ∧
    (∀ format r, (loadEnvironment { e with format := format }).result = .error r ↔
      (loadEnvironment e).result = .error r) ∧
    ∀ e' c c', (loadEnvironment e).result = .ok c → (loadEnvironment e').result = .ok c' →
      (e.level = e'.level → c.observability.logLevel = c'.observability.logLevel) ∧
      (e.format = e'.format → c.observability.jsonLogs = c'.observability.jsonLogs) := by
  refine ⟨⟨⟨.ofEnvironment e⟩, reflects_ofEnvironment e, fun c h => reflects_iff.1 h, ?_⟩,
    fun bytes => ⟨Environment.faulty_iff_unset, fun h => ⟨?_, ?_⟩⟩,
    fun format r => @loadEnvironment_error_iff { e with format := format } e rfl r,
    fun e' c c' h h' => ⟨fun hl => ?_, fun hf => ?_⟩⟩
  · rw [load_eq_validated, loadEnvironment]
  · exact loadEnvironment_congr (Environment.text?_of_faulty h) rfl
  · exact loadEnvironment_congr rfl (Environment.text?_of_faulty h)
  · rw [reflects_iff.1 (reflects_of_loadEnvironment h), reflects_iff.1 (reflects_of_loadEnvironment h'),
      Observability.ofEnvironment, Observability.ofEnvironment, hl]
  · rw [reflects_iff.1 (reflects_of_loadEnvironment h), reflects_iff.1 (reflects_of_loadEnvironment h'),
      Observability.ofEnvironment, Observability.ofEnvironment, hf]

/-- Half of a surrogate pair, in the three bytes that its number would take. -/
theorem faulty_surrogate : Text.Faulty [0xED, 0xA0, 0x80] :=
  ⟨[], _, [], rfl, .nil, @Text.Fault.surrogate [0xED, 0xA0, 0x80] [] 0xD800
    (.three (by decide) (by decide) rfl rfl rfl) (by decide) (by decide)⟩

/-- The level is taken as it is written, and a format that is no text is as good as none. -/
theorem loadEnvironment_eq_load_surrogate :
    Text.Faulty [0xED, 0xA0, 0x80] ∧
    loadEnvironment { level := some "wArN".toUTF8, format := some ⟨#[0xED, 0xA0, 0x80]⟩ } =
      loadEnvironment { level := some "wArN".toUTF8 } ∧
    loadEnvironment { level := some "wArN".toUTF8 } = load (written ⟨⟨"wArN", false⟩⟩) := by
  obtain ⟨⟨c, hc, -, hload⟩, hfault, -⟩ := loadEnvironment_eq_load { level := some "wArN".toUTF8 }
  have hlevel : c.observability.logLevel = "wArN" :=
    hc.level "wArN" ⟨_, rfl, Environment.wellFormed_toUTF8_iff.2 rfl⟩
  have hjson : c.observability.jsonLogs = false := by
    rw [Bool.eq_false_iff]
    intro h
    obtain ⟨_, ⟨_, hb, -⟩, -⟩ := hc.format.1 h
    cases hb
  obtain ⟨o⟩ := c
  obtain ⟨level, json⟩ := o
  cases hlevel
  cases hjson
  exact ⟨faulty_surrogate, ((hfault ⟨#[0xED, 0xA0, 0x80]⟩).2 faulty_surrogate).2, hload⟩

end Config

end Preconditions
