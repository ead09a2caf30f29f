import Preconditions.Check.Presence

/-!
# Scans

All elements of a list parameter are checked one after the other. A scan pulls its elements as it needs them
and stops at the first that is absent.
-/

namespace Preconditions.Check

universe u
variable {α : Type u}

structure Scan (α : Type u) where
  found : Checked (List α)
  pulled : Nat

def Scan.cons (c : Checked α) (s : Scan α) : Scan α := ⟨c.bind fun a => s.found.map (a :: ·), s.pulled + 1⟩

def scanFrom (name : String) (position : Nat) : List (Option α) → Scan α
  | [] => ⟨.pass [], 0⟩
  | value :: values =>
    let c := notNullElement name (.ofNat position) value
    match c.result with
    | .ok _ => (scanFrom name (position + 1) values).cons c
    | .error r => ⟨⟨.error r, c.events⟩, 1⟩

/-- Nothing is pulled under an empty name. -/
def allNotNull (name : String) (values : List (Option α)) : Scan α :=
  if name = "" then ⟨.reject (Catalog.missingArgument nameLabel), 0⟩ else scanFrom name 0 values

end Preconditions.Check
