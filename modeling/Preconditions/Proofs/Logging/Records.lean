import Preconditions.Logging.Record
import Preconditions.Proofs.Text.Escapes

/-!
# Records of events

A record tells the code, the kind and the parameter of its event: in a line of text, with the parameter between quotes,
or by its fields.
-/

namespace Preconditions.Logging

inductive Record.Shows (e : Event) : Format → Record → Prop
  | line {quoted : List Char} (h : Text.Quotes e.parameter.toList quoted) :
    Shows e .compact (.line ("DEBUG param_check::messages: parameter_rejected code=" ++ e.id.code ++
      " kind=" ++ e.kind.title ++ " parameter=\"" ++ String.ofList quoted ++ "\""))
  | fields : Shows e .json (.fields e)

theorem line_eq (e : Event) : line e = "DEBUG param_check::messages: parameter_rejected code=" ++ e.id.code ++
    " kind=" ++ e.kind.title ++ " parameter=\"" ++ String.ofList (e.parameter.toList.flatMap Text.quotedChar) ++ "\"" := by
  have hquoted : Text.quoted e.parameter =
      "\"" ++ String.ofList (e.parameter.toList.flatMap Text.quotedChar) ++ "\"" := by
    rw [String.ext_iff, Text.toList_quoted]
    simp
  have hparameter : " parameter=\"" = " parameter=" ++ "\"" := rfl
  have hhead : "DEBUG param_check::messages: parameter_rejected code=" =
      Event.level ++ " " ++ Event.target ++ ": " ++ Event.title ++ " code=" := rfl
  rw [line, hquoted, hparameter, hhead]
  simp only [String.append_assoc]

theorem Record.shows_record (format : Format) (e : Event) : Shows e format (format.record e) := by
  cases format with
  | compact =>
    rw [Format.record, line_eq]
    exact .line (Text.quotes_quotedChars _)
  | json => exact .fields

end Preconditions.Logging
