import Preconditions.Text.Pattern.Atom
import Preconditions.Text.Pattern.Height

/-!
# Classes in brackets

A class lists characters, ranges and further classes, and may be made of lists with operations between them.
-/

namespace Preconditions.Text.Pattern

/-! ## Named classes -/

def classNames : List String :=
  ["alnum", "alpha", "ascii", "blank", "cntrl", "digit", "graph", "lower", "print", "punct", "space", "upper",
   "word", "xdigit"]

def className? (s : List Char) : Option (List Char) :=
  match s.dropWhile (· != ':') with
  | ':' :: ']' :: rest =>
    if classNames.contains (String.ofList (s.takeWhile (· != ':'))) then some rest else none
  | _ => none

theorem className?_suffix {s r : List Char} (h : className? s = some r) : r <:+ s := by
  unfold className? at h
  split at h
  case h_1 rest hd =>
    split at h
    · cases h
      exact ((List.suffix_cons _ _).trans (List.suffix_cons _ _)).trans (hd ▸ List.dropWhile_suffix _)
    · cases h
  case h_2 => cases h

def namedClass? : List Char → Option (Bool × List Char)
  | ':' :: '^' :: s => (className? s).map (true, ·)
  | ':' :: s => (className? s).map (false, ·)
  | _ => none

theorem namedClass?_suffix {s : List Char} {negated : Bool} {r : List Char}
    (h : namedClass? s = some (negated, r)) : r <:+ s := by
  unfold namedClass? at h
  split at h
  case h_1 s =>
    obtain ⟨_, hn, h⟩ := Option.map_eq_some_iff.mp h
    cases h
    exact (className?_suffix hn).trans ((List.suffix_cons _ s).trans (List.suffix_cons _ _))
  case h_2 s _ =>
    obtain ⟨_, hn, h⟩ := Option.map_eq_some_iff.mp h
    cases h
    exact (className?_suffix hn).trans (List.suffix_cons _ s)
  case h_3 => cases h

def namedStands (m : Mode) (negated : Bool) : Bool := if m.unicode then !m.caseless else !negated

/-! ## Brackets -/

/-- An open bracket: whether nothing but opening dashes stands in it, the height of what stands before the
last operation, if any, and the heights of the items after it. -/
structure Bracket where
  opening : Bool
  left? : Option Nat
  items : List Nat
deriving DecidableEq, Repr

namespace Bracket

def start : Bracket := ⟨true, none, []⟩

def push (b : Bracket) (height : Nat) : Bracket := { b with opening := false, items := height :: b.items }

def height (b : Bracket) : Nat :=
  match b.left? with
  | none => joined b.items
  | some h => 1 + max h (joined b.items)

def operate (b : Bracket) : Bracket := ⟨false, some b.height, []⟩

def closed (b : Bracket) : Nat := 1 + b.height

/-- A closing bracket closes unless it comes first. -/
def isClosedBy (b : Bracket) (c : Char) : Bool := c = ']' && !(b.opening && b.items = [])

/-- Takes the caret of a negated class, from after its bracket. Without Unicode no class is negated. -/
def open? (m : Mode) (s : List Char) : Option (List Char) :=
  match m.skip s with
  | [] => none
  | c :: s => if c = '^' then if m.unicode then some s else none else some (c :: s)

theorem open?_suffix {m : Mode} {s r : List Char} (h : open? m s = some r) : r <:+ s := by
  unfold open? at h
  split at h
  · cases h
  · refine List.IsSuffix.trans ?_ (Mode.suffix_of_skip ‹_›)
    split at h
    · split at h
      · exact Option.some.inj h ▸ List.suffix_cons _ _
      · cases h
    · exact Option.some.inj h ▸ List.suffix_rfl

def rangeEnd? (m : Mode) (low : Atom) (s : List Char) : Option (List Char) :=
  match m.skip s with
  | [] => none
  | c :: s =>
    (classAtom? m (c :: s)).bind fun (high, s) =>
      if low.rangesTo high && low.standsInClass m && high.standsInClass m then some s else none

theorem rangeEnd?_suffix {m : Mode} {low : Atom} {s r : List Char} (h : rangeEnd? m low s = some r) :
    r <:+ s := by
  unfold rangeEnd? at h
  split at h
  · cases h
  · obtain ⟨⟨high, t⟩, ht, h⟩ := Option.bind_eq_some_iff.mp h
    dsimp only at h
    split at h
    · exact Option.some.inj h ▸ (classAtom?_suffix ht).trans (Mode.tail_suffix_of_skip ‹_›)
    · cases h

/-- Takes a character or a range. A dash makes no range if another one or a closing bracket follows. -/
def item? (m : Mode) (c : Char) (s : List Char) : Option (List Char) :=
  (classAtom? m (c :: s)).bind fun (a, s) =>
    match m.skip s with
    | [] => none
    | d :: s =>
      if d = '-' && m.next? s != some ']' && m.next? s != some '-' then rangeEnd? m a s
      else if a.standsInClass m then some (d :: s) else none

theorem item?_suffix {m : Mode} {c : Char} {s r : List Char} (h : item? m c s = some r) : r <:+ s := by
  obtain ⟨⟨a, t⟩, ht, h⟩ := Option.bind_eq_some_iff.mp h
  refine List.IsSuffix.trans ?_ (classAtom?_suffix ht)
  dsimp only at h
  split at h
  · cases h
  · split at h
    · exact (rangeEnd?_suffix h).trans (Mode.tail_suffix_of_skip ‹_›)
    · split at h
      · exact Option.some.inj h ▸ Mode.suffix_of_skip ‹_›
      · cases h

def isOperator (c : Char) : Bool := c = '&' || c = '-' || c = '~'

def step? (m : Mode) (b : Bracket) (outer : List Bracket) (c : Char) (s : List Char) :
    Option (Bracket × List Bracket × List Char) :=
  if b.opening && (c = '-' || c = ']') then
    if (Atom.character c.toNat false).standsInClass m then
      some ({ b.push 0 with opening := c = '-' }, outer, s)
    else none
  else if c = '[' then
    match namedClass? s with
    | some (negated, s) => if namedStands m negated then some (b.push 0, outer, s) else none
    | none => (open? m s).map fun s => (start, { b with opening := false } :: outer, s)
  else if isOperator c && s.head? = some c then some (b.operate, outer, s.tail)
  else (item? m c s).map fun s => (b.push 0, outer, s)

theorem step?_suffix {m : Mode} {b : Bracket} {outer : List Bracket} {c : Char} {s : List Char}
    {b' : Bracket} {outer' : List Bracket} {r : List Char} (h : step? m b outer c s = some (b', outer', r)) :
    r <:+ s := by
  unfold step? at h
  split at h
  · split at h
    · cases h; exact List.suffix_rfl
    · cases h
  split at h
  · split at h
    · split at h
      · cases h; exact namedClass?_suffix ‹_›
      · cases h
    · obtain ⟨_, ht, h⟩ := Option.map_eq_some_iff.mp h
      cases h; exact open?_suffix ht
  split at h
  · cases h; exact List.tail_suffix s
  · obtain ⟨_, ht, h⟩ := Option.map_eq_some_iff.mp h
    cases h; exact item?_suffix ht

def close? (m : Mode) (b : Bracket) (outer : List Bracket) (s : List Char) : Option (Nat × List Char) :=
  match h : m.skip s with
  | [] => none
  | c :: t =>
    have : t.length < s.length := (Mode.suffix_of_skip h).length_le
    if b.isClosedBy c then
      match outer with
      | [] => some (b.closed, t)
      | o :: outer => close? m (o.push b.closed) outer t
    else
      match ht : step? m b outer c t with
      | none => none
      | some (b', outer', r) =>
        have : r.length ≤ t.length := (step?_suffix ht).length_le
        close? m b' outer' r
termination_by s.length

theorem close?_suffix {m : Mode} {b : Bracket} {outer : List Bracket} {s : List Char} {n : Nat}
    {r : List Char} (h : close? m b outer s = some (n, r)) : r <:+ s := by
  fun_induction close? m b outer s with
  | case1 => cases h
  | case2 b s c t ht _ _ => cases h; exact Mode.tail_suffix_of_skip ht
  | case3 b s c t ht _ _ o outer ih => exact (ih h).trans (Mode.tail_suffix_of_skip ht)
  | case4 => cases h
  | case5 b outer s c t ht _ _ b' outer' u hu _ ih =>
    exact ((ih h).trans (step?_suffix hu)).trans (Mode.tail_suffix_of_skip ht)

end Bracket

def class? (m : Mode) (s : List Char) : Option (Nat × List Char) :=
  (Bracket.open? m s).bind (Bracket.close? m .start [])

theorem class?_suffix {m : Mode} {s : List Char} {n : Nat} {r : List Char} (h : class? m s = some (n, r)) :
    r <:+ s := by
  obtain ⟨_, ht, h⟩ := Option.bind_eq_some_iff.mp h
  exact (Bracket.close?_suffix h).trans (Bracket.open?_suffix ht)

end Preconditions.Text.Pattern
