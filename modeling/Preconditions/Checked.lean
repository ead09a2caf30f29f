import Preconditions.Rejection

/-!
# Checked results

Each rejection of the catalog is told to the log by one event. A check yields a value or a rejection, together
with the events of the rejections it made.
-/

namespace Preconditions

/-- What the log is told of a rejection. Only the message, the kind and the parameter appear. -/
structure Event where
  id : MessageId
  kind : Kind
  parameter : String
deriving DecidableEq, Repr

namespace Event

def level : String := "DEBUG"

def target : String := "param_check::messages"

def title : String := "parameter_rejected"

/-- The names of the fields that every event has; the first one holds the title. -/
def fields : List String := ["message", "code", "kind", "parameter"]

end Event

def Rejection.event (r : Rejection) : Event := ⟨r.id, r.kind, r.parameter.getD ""⟩

structure Logged (α : Type u) where
  value : α
  events : List Event

/-! ## The catalog -/

namespace Catalog

def announced (r : Rejection) : Logged Rejection := ⟨r, [r.event]⟩

def missingArgument (name : String) : Logged Rejection := announced (.missingArgument name)

def nullReference (name : String) : Logged Rejection := announced (.nullReference name)

def missingElement (index : UInt64) (name : String) : Logged Rejection :=
  announced (.missingElement name index)

def emptyArgument (name : String) : Logged Rejection := announced (.emptyArgument name)

def invalidUsage (detail : String) : Logged Rejection := announced (.invalidUsage detail)

end Catalog

/-! ## Checks -/

structure Checked (α : Type u) where
  result : Except Rejection α
  events : List Event

namespace Checked
variable {α : Type u} {β : Type v}

def pass (a : α) : Checked α := ⟨.ok a, []⟩

def reject (r : Logged Rejection) : Checked α := ⟨.error r.value, r.events⟩

def bind (c : Checked α) (k : α → Checked β) : Checked β :=
  match c.result with
  | .ok a => ⟨(k a).result, c.events ++ (k a).events⟩
  | .error r => ⟨.error r, c.events⟩

def map (f : α → β) (c : Checked α) : Checked β := c.bind fun a => pass (f a)

@[simp] theorem pass_bind (a : α) (k : α → Checked β) : (pass a).bind k = k a := rfl

end Checked

end Preconditions
