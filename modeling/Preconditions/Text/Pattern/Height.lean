/-!
# Heights

The height of a pattern is the depth to which its parts nest, and is limited. Parts that stand side by side
make a level of their own only if there are several.
-/

namespace Preconditions.Text.Pattern

def heightLimit : Nat := 250

def joined : List Nat → Nat
  | [] => 0
  | [h] => h
  | hs => 1 + hs.foldr max 0

end Preconditions.Text.Pattern
