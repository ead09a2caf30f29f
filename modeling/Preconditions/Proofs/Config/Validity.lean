import Preconditions.Config

/-!
# Valid configurations

A configuration is valid when its level is one of five words, in any case. All that loading yields is valid.
-/

namespace Preconditions

/-! ## Checked results -/

namespace Checked
variable {α β : Type}

theorem result_bind (c : Checked α) (k : α → Checked β) : (c.bind k).result = c.result.bind fun a => (k a).result := by
  unfold bind
  cases c.result <;> rfl

theorem result_map (f : α → β) (c : Checked α) : (c.map f).result = c.result.map f := by
  rw [map, result_bind]
  cases c.result <;> rfl

end Checked

theorem isEmptyValue_text (s : String) : isEmptyValue s = true ↔ s = "" := by
  simp [isEmptyValue, String.utf8ByteSize_eq_zero_iff]

theorem Check.notEmpty_text {name : String} (hn : name ≠ "") (s : String) :
    Check.notEmpty name s = if s = "" then .reject (Catalog.emptyArgument name) else .pass s := by
  rw [Check.notEmpty_of_ne hn]
  by_cases hs : s = ""
  · rw [if_pos ((isEmptyValue_text s).2 hs), if_pos hs]
  · rw [if_neg (fun h => hs ((isEmptyValue_text s).1 h)), if_neg hs]

namespace Config

/-! ## The verdict -/

theorem validate_result (c : Config) :
    c.validate.result =
      if c.observability.logLevel = "" then .error (.emptyArgument levelLabel)
      else if knownLevel c.observability.logLevel then .ok ()
      else .error (.invalidUsage ("unknown log level '" ++ c.observability.logLevel ++ "'")) := by
  rw [validate, Check.notEmpty_text (by decide)]
  split
  · rfl
  · rw [Checked.pass_bind]
    split <;> rfl

theorem knownLevel_iff {level : String} :
    knownLevel level = true ↔ ∃ word ∈ levels, Text.sameIgnoringCase level word = true := by
  simp [knownLevel]

theorem ne_empty_of_knownLevel {level : String} (h : knownLevel level = true) : level ≠ "" := by
  rintro rfl
  exact absurd h (by decide)

theorem validate_ok_iff {c : Config} : c.validate.result = .ok () ↔ knownLevel c.observability.logLevel = true := by
  rw [validate_result]
  constructor
  · intro h
    split at h
    · cases h
    split at h
    · assumption
    · cases h
  · intro h
    rw [if_neg (ne_empty_of_knownLevel h), if_pos h]

/-! ## Loading -/

theorem validated_result (c : Config) : c.validated.result = c.validate.result.map fun _ => c := by
  rw [validated, Checked.result_map]

theorem of_validated {c d : Config} (h : c.validated.result = .ok d) : d.validate.result = .ok () := by
  rw [validated_result] at h
  cases hv : c.validate.result with
  | ok u =>
    rw [hv] at h
    cases h
    exact hv
  | error r =>
    rw [hv] at h
    cases h

theorem validate_of_load {text : String} {c : Config} (h : (load text).result = .ok c) :
    c.validate.result = .ok () := by
  unfold load at h
  split at h
  · exact of_validated h
  · cases h

theorem validate_of_loadEnvironment {e : Environment} {c : Config} (h : (loadEnvironment e).result = .ok c) :
    c.validate.result = .ok () := of_validated h

/-! ## Errors -/

theorem validated_error_iff {c : Config} {r : Rejection} :
    c.validated.result = .error r ↔ c.validate.result = .error r := by
  rw [validated_result]
  cases c.validate.result <;> simp [Except.map]

def malformed (reason : String) : Rejection := .invalidUsage ("malformed config: " ++ reason)

theorem validate_ne_malformed (c : Config) (reason : String) : c.validate.result ≠ .error (malformed reason) := by
  rw [validate_result, malformed]
  split
  · simp
  split
  · simp
  · intro h
    have hs : "unknown log level '" ++ c.observability.logLevel ++ "'" = "malformed config: " ++ reason := by
      simpa using h
    have hhead := congrArg (fun s : String => s.toList.head?) hs
    simp only [String.toList_append] at hhead
    exact absurd hhead (by simp)

end Config

end Preconditions
