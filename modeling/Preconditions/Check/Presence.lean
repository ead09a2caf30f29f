import Preconditions.Checked

/-!
# Presence

A check is given the name of the parameter it is about. The name comes first: an empty one is rejected
whatever the value is.
-/

namespace Preconditions.Check

universe u v
variable {α : Type u} {β : Type v}

def nameLabel : String := "name"

def valueLabel : String := "value"

def named (name : String) (check : Checked α) : Checked α :=
  if name = "" then .reject (Catalog.missingArgument nameLabel) else check

def present (absence : Logged Rejection) : Option α → Checked α
  | some a => .pass a
  | none => .reject absence

def notNull (name : String) (value : Option α) : Checked α :=
  named name (present (Catalog.missingArgument name) value)

/-- Absence is rejected as a null reference, for callers that tell it from other bad arguments. -/
def notNullStrict (name : String) (value : Option α) : Checked α :=
  named name (present (Catalog.nullReference name) value)

def notNullElement (name : String) (index : UInt64) (value : Option α) : Checked α :=
  named name (present (Catalog.missingElement index name) value)

theorem named_empty (check : Checked α) : named "" check = .reject (Catalog.missingArgument nameLabel) := rfl

theorem named_of_ne {name : String} (h : name ≠ "") (check : Checked α) : named name check = check := if_neg h

end Preconditions.Check
