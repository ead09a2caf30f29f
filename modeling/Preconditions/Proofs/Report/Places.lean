import Preconditions.MessageId
import Preconditions.Proofs.Json.Places
import Preconditions.Proofs.Report.Truncation

/-!
# Where documents are refused

The records are read by readers that look at one character past what they take, so each refusal of a document has its
place in the text. The error of a configuration that cannot be loaded holds the message of the refusal, place included.
-/

namespace Preconditions

open Json

/-! ## Readers -/

theorem Observability.reader_local : Local format.reader.run := by
  apply format.reader_local
  refine List.forall_mem_cons.2 ⟨map_local text_local _, List.forall_mem_singleton.2 ?_⟩
  exact map_local boolean_local _

theorem Config.reader_local : Local format.reader.run := by
  apply format.reader_local
  exact List.forall_mem_singleton.2 (map_local Observability.reader_local _)

theorem Report.reader_local : Local format.reader.run := by
  have hparameter := optional_local text_local (refine_trim _)
  have hindex := optional_local word64_local (refine_trim _)
  apply format.reader_local
  refine List.forall_mem_cons.2 ⟨map_local (variant_local _) _, ?_⟩
  refine List.forall_mem_cons.2 ⟨map_local text_local _, ?_⟩
  refine List.forall_mem_cons.2 ⟨map_local text_local _, ?_⟩
  exact List.forall_mem_cons.2 ⟨map_local hparameter _, List.forall_mem_singleton.2 (map_local hindex _)⟩

/-! ## Loading -/

theorem Config.load_eq_malformed_iff {text reason : String} :
    (load text).result = .error (malformed reason) ↔ ∃ e, ofJson text = .error e ∧ e.message = reason := by
  constructor
  · intro h
    cases ht : ofJson text with
    | ok c =>
      rw [load, ht] at h
      exact absurd (validated_error_iff.1 h) (c.validate_ne_malformed reason)
    | error e =>
      rw [load_of_refused ht] at h
      have hreason : "malformed config: " ++ e.message = "malformed config: " ++ reason :=
        Rejection.invalidUsage.inj (Except.error.inj h)
      exact ⟨e, rfl, (String.append_right_inj _).1 hreason⟩
  · rintro ⟨e, he, rfl⟩
    exact load_of_refused he

/-- **Places of refusals.** Whatever is refused is refused at a place in the text, by its line and its column; and a
configuration is malformed exactly when its document is refused, for the reason that is given there. -/
theorem refusals_point_into_texts :
    (PointsInto Config.ofJson ∧ PointsInto Observability.ofJson ∧ PointsInto Kind.ofJson ∧ PointsInto Report.ofJson ∧
      PointsInto MessageId.ofJson) ∧
    ∀ text reason, (Config.load text).result = .error (.invalidUsage ("malformed config: " ++ reason)) ↔
      ∃ e, Config.ofJson text = .error e ∧ e.message = reason :=
  ⟨⟨pointsInto_decode Config.reader_local, pointsInto_decode Observability.reader_local,
    pointsInto_decode (variant_local _), pointsInto_decode Report.reader_local,
    pointsInto_decode (map_local word16_local _)⟩, fun _ _ => Config.load_eq_malformed_iff⟩

/-- A list that goes on with a letter of two bytes is refused inside of the letter, whatever comes after it. -/
theorem refusals_point_into_texts_letter :
    Report.ofJson "[\"null_reference\",\n\"ö\", é" = .error ⟨.expectedValue, ⟨2, 7⟩⟩ ∧
      (∀ u, Report.ofJson ("[\"null_reference\",\n\"ö\", é" ++ u) = .error ⟨.expectedValue, ⟨2, 7⟩⟩) ∧
      (∃ e k, Placed Config.ofJson "[\n[\"ö\",1]]" e k ∧ e.position = ⟨2, 7⟩) ∧
      (Config.load "[\n[\"ö\",1]]").result =
        .error (.invalidUsage "malformed config: invalid type: integer `1`, expected a boolean at line 2 column 7") := by
  have hreport : Report.ofJson "[\"null_reference\",\n\"ö\", é" = .error ⟨.expectedValue, ⟨2, 7⟩⟩ := by decide +kernel
  have hconfig : Config.ofJson "[\n[\"ö\",1]]" =
      .error ⟨.invalidType (.number (.integer 1)) "a boolean", ⟨2, 7⟩⟩ := by decide +kernel
  obtain ⟨⟨hconfigs, -, -, hreports, -⟩, hload⟩ := refusals_point_into_texts
  obtain ⟨k, hk⟩ := hreports _ _ hreport
  obtain ⟨m, hm⟩ := hconfigs _ _ hconfig
  refine ⟨hreport, fun u => ?_, ⟨_, m, hm, rfl⟩, ?_⟩
  · refine hk.settled _ List.prefix_rfl (Nat.lt_of_le_of_ne hk.inside ?_) u
    rintro rfl
    exact absurd hk.reached.eq_after (by decide +kernel)
  · exact (hload _ "invalid type: integer `1`, expected a boolean at line 2 column 7").2 ⟨_, hconfig, by decide⟩

end Preconditions
