import Preconditions.Text.Caseless

/-!
# The environment of a process

Three variables bear on the log: its level, its format and its filter.
-/

namespace Preconditions

structure Environment where
  level : Option ByteArray := none
  format : Option ByteArray := none
  filter : Option ByteArray := none

namespace Environment

/-- A variable whose bytes are no UTF-8 counts as unset. -/
def text? (value : Option ByteArray) : Option String := value.bind String.fromUTF8?

theorem text?_toUTF8 (s : String) : text? (some s.toUTF8) = some s := dif_pos s.isValidUTF8

def jsonName : String := "json"

def asksForJson (format : String) : Bool := Text.sameIgnoringCase format jsonName

end Environment

end Preconditions
