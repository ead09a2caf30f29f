import Preconditions.Text.Hexadecimal
import Preconditions.Text.Pattern.Mode

/-!
# Atoms

An atom is a part of a pattern without parts. There are no tables of characters: all that would need one, as
leaving case aside does, is refused. Without Unicode a pattern is about bytes, and what it takes has
to be UTF-8 all the same.
-/

namespace Preconditions.Text.Pattern

inductive Atom where
  /-- A character, and whether its number is that of a byte. -/
  | character (code : Nat) (byte : Bool)
  | anyCharacter
  | anchor
  | wordBoundary
  | shorthand (negated : Bool)
deriving DecidableEq, Repr

namespace Atom

def standsAlone (m : Mode) : Atom → Bool
  | character code byte => if m.unicode then !m.caseless else !byte || code < 0x80
  | anyCharacter => m.unicode
  | anchor => true
  | wordBoundary => !m.unicode
  | shorthand negated => !m.unicode && !negated

def standsInClass (m : Mode) : Atom → Bool
  | character code _ => if m.unicode then !m.caseless else code < 0x80
  | shorthand negated => !m.unicode && !negated
  | _ => false

def rangesTo : Atom → Atom → Bool
  | character low _, character high _ => low ≤ high
  | _, _ => false

end Atom

/-! ## Escapes -/

def hexWidth? : Char → Option Nat
  | 'x' => some 2
  | 'u' => some 4
  | 'U' => some 8
  | _ => none

def escaped? (c : Char) : Option Atom :=
  match c with
  | 'a' => some (.character 7 false)
  | 't' => some (.character 9 false)
  | 'n' => some (.character 10 false)
  | 'v' => some (.character 11 false)
  | 'f' => some (.character 12 false)
  | 'r' => some (.character 13 false)
  | 'A' | 'z' => some .anchor
  | 'b' | 'B' | '<' | '>' => some .wordBoundary
  | 'd' | 's' | 'w' => some (.shorthand false)
  | 'D' | 'S' | 'W' => some (.shorthand true)
  | c => if c.toNat < 0x80 && !c.isAlphanum then some (.character c.toNat false) else none

def hexDigits? (m : Mode) : Nat → Nat → List Char → Option (Nat × List Char)
  | 0, value, s => some (value, s)
  | n + 1, value, s =>
    match m.skip s with
    | [] => none
    | c :: s => (hexValue? c).bind fun d => hexDigits? m n (16 * value + d) s

theorem hexDigits?_suffix {m : Mode} : ∀ {n value : Nat} {s : List Char} {v : Nat} {r : List Char},
    hexDigits? m n value s = some (v, r) → r <:+ s
  | 0, _, s, _, _, h => by
    obtain ⟨_, rfl⟩ := Prod.mk.inj (Option.some.inj h)
    exact List.suffix_rfl
  | n + 1, _, s, _, _, h => by
    unfold hexDigits? at h
    split at h
    · cases h
    · obtain ⟨_, _, h⟩ := Option.bind_eq_some_iff.mp h
      exact (hexDigits?_suffix h).trans (Mode.tail_suffix_of_skip ‹_›)

def escape? (m : Mode) : List Char → Option (Atom × List Char)
  | [] => none
  | c :: s =>
    match hexWidth? c with
    | none => (escaped? c).map (·, s)
    | some n =>
      (hexDigits? m n 0 s).bind fun (code, s) =>
        if code.isValidChar then some (.character code (c = 'x'), s) else none

theorem escape?_suffix {m : Mode} {s : List Char} {a : Atom} {r : List Char} (h : escape? m s = some (a, r)) :
    r <:+ s := by
  unfold escape? at h
  split at h
  · cases h
  · refine List.IsSuffix.trans ?_ (List.suffix_cons _ _)
    split at h
    · obtain ⟨_, _, h⟩ := Option.map_eq_some_iff.mp h
      obtain ⟨_, rfl⟩ := Prod.mk.inj h
      exact List.suffix_rfl
    · obtain ⟨⟨code, t⟩, ht, h⟩ := Option.bind_eq_some_iff.mp h
      dsimp only at h
      split at h
      · obtain ⟨_, rfl⟩ := Prod.mk.inj (Option.some.inj h)
        exact hexDigits?_suffix ht
      · cases h

def atom? (m : Mode) (c : Char) (s : List Char) : Option (Atom × List Char) :=
  match c with
  | '\\' => escape? m s
  | '.' => some (.anyCharacter, s)
  | '^' | '$' => some (.anchor, s)
  | c => some (.character c.toNat false, s)

theorem atom?_suffix {m : Mode} {c : Char} {s : List Char} {a : Atom} {r : List Char}
    (h : atom? m c s = some (a, r)) : r <:+ s := by
  unfold atom? at h
  split at h
  · exact escape?_suffix h
  all_goals
    obtain ⟨_, rfl⟩ := Prod.mk.inj (Option.some.inj h)
    exact List.suffix_rfl

def classAtom? (m : Mode) : List Char → Option (Atom × List Char)
  | [] => none
  | c :: s => if c = '\\' then escape? m s else some (.character c.toNat false, s)

theorem classAtom?_suffix {m : Mode} {c : Char} {s : List Char} {a : Atom} {r : List Char}
    (h : classAtom? m (c :: s) = some (a, r)) : r <:+ s := by
  rw [classAtom?] at h
  split at h
  · exact escape?_suffix h
  · obtain ⟨_, rfl⟩ := Prod.mk.inj (Option.some.inj h)
    exact List.suffix_rfl

end Preconditions.Text.Pattern
