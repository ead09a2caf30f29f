import Preconditions.Checked
import Preconditions.Text.Quoted

/-!
# Records

A record is an event as the log shows it: a line of text, or fields that are written as JSON.
-/

namespace Preconditions.Logging

inductive Format where
  | compact
  | json
deriving DecidableEq, Repr

inductive Record where
  | line (text : String)
  | fields (event : Event)
deriving DecidableEq, Repr

/-- The line of an event. The parameter is quoted, so the line stays one line. -/
def line (e : Event) : String :=
  Event.level ++ " " ++ Event.target ++ ": " ++ Event.title ++ " code=" ++ e.id.code ++
    " kind=" ++ e.kind.title ++ " parameter=" ++ Text.quoted e.parameter

def Format.record : Format → Event → Record
  | .compact, e => .line (line e)
  | .json, e => .fields e

end Preconditions.Logging
