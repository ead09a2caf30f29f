import Std.Data.HashMap
import Std.Data.HashSet
import Std.Data.TreeMap
import Std.Data.TreeSet

/-!
# Emptiness

A type whose values have a length can be checked for emptiness. A value is empty when its length is zero,
unless its type says otherwise.
-/

namespace Preconditions

class Emptiness (α : Type u) where
  valueLen : α → Nat
  isEmptyValue : α → Bool := fun v => valueLen v == 0

export Emptiness (valueLen isEmptyValue)

/-! ## Texts and sequences -/

/-- The length of a text is its number of bytes. -/
instance : Emptiness String where
  valueLen s := s.utf8ByteSize

instance {α : Type u} : Emptiness (List α) where
  valueLen := List.length

instance {α : Type u} : Emptiness (Array α) where
  valueLen := Array.size

instance {α : Type u} : Emptiness (Subarray α) where
  valueLen s := s.size

instance {α : Type u} {n : Nat} : Emptiness (Vector α n) where
  valueLen _ := n

/-! ## Queues, sets and maps -/

/-- A priority queue, kept in ascending order; equal elements are all kept. -/
structure PriorityQueue (α : Type u) where
  elements : List α

namespace PriorityQueue

def ofList {α : Type u} [Ord α] (xs : List α) : PriorityQueue α :=
  ⟨xs.mergeSort fun a b => (compare a b).isLE⟩

theorem length_ofList {α : Type u} [Ord α] (xs : List α) : (ofList xs).elements.length = xs.length := by
  simp [ofList]

end PriorityQueue

instance {α : Type u} : Emptiness (PriorityQueue α) where
  valueLen q := q.elements.length

instance {α : Type u} [BEq α] [Hashable α] : Emptiness (Std.HashSet α) where
  valueLen := Std.HashSet.size

instance {α : Type u} {cmp : α → α → Ordering} : Emptiness (Std.TreeSet α cmp) where
  valueLen := Std.TreeSet.size

instance {α : Type u} {β : Type v} [BEq α] [Hashable α] : Emptiness (Std.HashMap α β) where
  valueLen := Std.HashMap.size

instance {α : Type u} {β : Type v} {cmp : α → α → Ordering} : Emptiness (Std.TreeMap α β cmp) where
  valueLen := Std.TreeMap.size

/-! ## Pointers -/

inductive PointerKind where
  | borrowed
  | exclusive
  | boxed
  | counted
  | shared
deriving DecidableEq, Repr

/-- A value held by a pointer. A pointer has the length of what it points to, and is empty by that length. -/
structure Pointer (k : PointerKind) (α : Type u) where
  target : α

instance {k : PointerKind} {α : Type u} [Emptiness α] : Emptiness (Pointer k α) where
  valueLen p := valueLen p.target

def Pointed : List PointerKind → Type u → Type u
  | [], α => α
  | k :: ks, α => Pointer k (Pointed ks α)

namespace Pointed
variable {α : Type u}

def wrap : (ks : List PointerKind) → α → Pointed ks α
  | [], v => v
  | _ :: ks, v => ⟨wrap ks v⟩

def target : (ks : List PointerKind) → Pointed ks α → α
  | [], v => v
  | _ :: ks, p => target ks (Pointer.target p)

@[reducible] def emptiness [Emptiness α] : (ks : List PointerKind) → Emptiness (Pointed ks α)
  | [] => inferInstanceAs (Emptiness α)
  | k :: ks => @instEmptinessPointer k (Pointed ks α) (emptiness ks)

instance [Emptiness α] {ks : List PointerKind} : Emptiness (Pointed ks α) := emptiness ks

theorem valueLen_wrap [Emptiness α] (ks : List PointerKind) (v : α) : valueLen (wrap ks v) = valueLen v := by
  induction ks with
  | nil => rfl
  | cons _ _ ih => exact ih

theorem isEmptyValue_wrap_cons [Emptiness α] (k : PointerKind) (ks : List PointerKind) (v : α) :
    isEmptyValue (wrap (k :: ks) v) = (valueLen v == 0) :=
  congrArg (· == 0) (valueLen_wrap ks v)

end Pointed

end Preconditions
