import Preconditions.Check.Content

/-!
# Variables

The name of a parameter that stands in a variable is the variable's own, as it is written.
-/

namespace Preconditions

universe u

structure Variable (α : Type u) where
  name : String
  value : α

namespace Variable
variable {α : Type u}

def notNull (v : Variable (Option α)) : Checked α := Check.notNull v.name v.value

def notEmpty [Emptiness α] (v : Variable α) : Checked α := Check.notEmpty v.name v.value

end Variable

end Preconditions
