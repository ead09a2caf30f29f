import Preconditions.Check.Presence
import Preconditions.Emptiness

/-!
# Content

A value of any type with a length is checked for emptiness. An absent value is not told apart by the
parameter's name: it is rejected under a name of its own.
-/

namespace Preconditions.Check

universe u
variable {α : Type u} [Emptiness α]

def notEmpty (name : String) (value : α) : Checked α :=
  named name (if isEmptyValue value then .reject (Catalog.emptyArgument name) else .pass value)

def presentNotEmpty (name : String) (value : Option α) : Checked α :=
  named name ((present (Catalog.missingArgument valueLabel) value).bind (notEmpty name))

theorem notEmpty_of_ne {name : String} (h : name ≠ "") (value : α) :
    notEmpty name value = if isEmptyValue value then .reject (Catalog.emptyArgument name) else .pass value :=
  named_of_ne h _

/-- A value that is there is checked as it is; that the name is looked at twice shows nowhere. -/
theorem presentNotEmpty_some (name : String) (value : α) : presentNotEmpty name (some value) = notEmpty name value := by
  have h : presentNotEmpty name (some value) = named name (notEmpty name value) := rfl
  rw [h, notEmpty]
  by_cases hn : name = ""
  · rw [hn, named_empty, named_empty]
  · rw [named_of_ne hn]

end Preconditions.Check
