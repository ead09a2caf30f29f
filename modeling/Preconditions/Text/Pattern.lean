import Preconditions.Text.Pattern.Bracket
import Preconditions.Text.Pattern.Group

/-!
# Patterns

A pattern is a regular expression; what matters here is whether a text is one. It is read from left to right
with the open groups kept beside it. Counted repetition is no part of the language.
-/

namespace Preconditions.Text.Pattern

/-- A group that is open, or the whole pattern: how it is read on, the heights of its branches, and the parts
of the last branch, latest first. A part is known by its height, and flags have none. -/
structure Level where
  mode : Mode
  branches : List Nat
  row : List (Option Nat)
deriving DecidableEq, Repr

namespace Level

def start (m : Mode) : Level := ⟨m, [], []⟩

def push (l : Level) (part : Option Nat) : Level := { l with row := part :: l.row }

def rowHeight (l : Level) : Nat := joined (l.row.map (·.getD 0))

def branch (l : Level) : Level := { l with branches := l.rowHeight :: l.branches, row := [] }

def height (l : Level) : Nat := joined (l.rowHeight :: l.branches)

def repeat? (l : Level) : Option Level :=
  match l.row with
  | some h :: row => some { l with row := some (1 + h) :: row }
  | _ => none

end Level

structure State where
  here : Level
  outer : List Level
  names : List (List Char)
deriving DecidableEq, Repr

namespace State

def start : State := ⟨.start .start, [], []⟩

def push (s : State) (part : Option Nat) : State := { s with here := s.here.push part }

def enter (s : State) (m : Mode) : State := { s with here := .start m, outer := s.here :: s.outer }

def openGroup? (s : State) : Opening → Option State
  | .group m => some (s.enter m)
  | .named name =>
    if s.names.contains name then none else some { s.enter s.here.mode with names := name :: s.names }
  | .directive m => some { s with here := { s.here.push none with mode := m } }

def closeGroup? (s : State) : Option State :=
  match s.outer with
  | [] => none
  | l :: outer => some { s with here := l.push (some (1 + s.here.height)), outer }

/-- Goes on from a character. A question mark after a repetition belongs to it. -/
def step? (s : State) (c : Char) (rest : List Char) : Option (State × List Char) :=
  match c with
  | '(' => (opening? s.here.mode rest).bind fun (o, rest) => (s.openGroup? o).map (·, rest)
  | ')' => s.closeGroup?.map (·, rest)
  | '|' => some ({ s with here := s.here.branch }, rest)
  | '?' | '*' | '+' =>
    s.here.repeat?.map fun here => ({ s with here }, if rest.head? = some '?' then rest.tail else rest)
  | '{' => none
  | '[' => (class? s.here.mode rest).map fun (h, rest) => (s.push (some h), rest)
  | c =>
    (atom? s.here.mode c rest).bind fun (a, rest) =>
      if a.standsAlone s.here.mode then some (s.push (some 0), rest) else none

theorem step?_suffix {s t : State} {c : Char} {rest r : List Char} (h : s.step? c rest = some (t, r)) :
    r <:+ rest := by
  unfold step? at h
  split at h
  · obtain ⟨⟨o, u⟩, ho, h⟩ := Option.bind_eq_some_iff.mp h
    obtain ⟨_, _, h⟩ := Option.map_eq_some_iff.mp h
    cases h; exact opening?_suffix ho
  · obtain ⟨_, _, h⟩ := Option.map_eq_some_iff.mp h
    cases h; exact List.suffix_rfl
  · cases h; exact List.suffix_rfl
  iterate 3
    · obtain ⟨_, _, h⟩ := Option.map_eq_some_iff.mp h
      cases h
      split
      · exact List.tail_suffix rest
      · exact List.suffix_rfl
  · cases h
  · obtain ⟨⟨_, _⟩, hc, h⟩ := Option.map_eq_some_iff.mp h
    cases h; exact class?_suffix hc
  · obtain ⟨⟨a, u⟩, ha, h⟩ := Option.bind_eq_some_iff.mp h
    dsimp only at h
    split at h
    · cases h; exact atom?_suffix ha
    · cases h

def run? (s : State) (text : List Char) : Option State :=
  match h : s.here.mode.skip text with
  | [] => some s
  | c :: rest =>
    match hr : s.step? c rest with
    | none => none
    | some (t, r) =>
      have : r.length < text.length :=
        Nat.lt_of_le_of_lt (step?_suffix hr).length_le (Mode.suffix_of_skip h).length_le
      run? t r
termination_by text.length

def isFinal (s : State) : Bool := s.outer = [] && s.here.height ≤ heightLimit

end State

def isWellFormed (text : List Char) : Bool := (State.start.run? text).any State.isFinal

end Preconditions.Text.Pattern
