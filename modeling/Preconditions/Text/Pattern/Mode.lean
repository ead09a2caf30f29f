import Preconditions.Text.Whitespace

/-!
# Modes

Flags in a pattern change how the rest of it is read. A pattern is first about characters and their case, and
blanks in it stand for themselves.
-/

namespace Preconditions.Text.Pattern

/-- Three of the flags matter for the form of a pattern: case may be left aside, characters may be those of
Unicode or bytes, and blanks and comments may be left out. -/
structure Mode where
  caseless : Bool
  unicode : Bool
  spaced : Bool
deriving DecidableEq, Repr

namespace Mode

def start : Mode := ⟨false, true, false⟩

/-! ## Flags -/

def set (on : Bool) (m : Mode) (flag : Char) : Mode :=
  match flag with
  | 'i' => { m with caseless := on }
  | 'u' => { m with unicode := on }
  | 'x' => { m with spaced := on }
  | _ => m

def withFlags (m : Mode) (flags : List Char) : Mode :=
  (flags.dropWhile (· != '-')).foldl (set false) ((flags.takeWhile (· != '-')).foldl (set true) m)

end Mode

/-- Whether a text is a list of flags. None comes twice, and a dash has flags after it. -/
def areFlags (flags : List Char) : Bool :=
  flags.all ['i', 'm', 's', 'U', 'u', 'R', 'x', '-'].contains && decide flags.Nodup &&
    flags.getLast? != some '-'

/-! ## Blanks -/

def dropBlanks (inComment : Bool) : List Char → List Char
  | [] => []
  | c :: s =>
    if inComment then dropBlanks (c != '\n') s
    else if isWhitespace c then dropBlanks false s
    else if c = '#' then dropBlanks true s
    else c :: s

theorem dropBlanks_suffix (inComment : Bool) (s : List Char) : dropBlanks inComment s <:+ s := by
  fun_induction dropBlanks inComment s with
  | case1 | case5 => exact List.suffix_rfl
  | case2 c s ih | case3 _ c s _ _ ih | case4 _ s _ _ ih => exact ih.trans (List.suffix_cons _ s)

namespace Mode

def skip (m : Mode) (s : List Char) : List Char := if m.spaced then dropBlanks false s else s

theorem skip_suffix (m : Mode) (s : List Char) : m.skip s <:+ s := by
  unfold skip
  split
  · exact dropBlanks_suffix false s
  · exact List.suffix_rfl

theorem suffix_of_skip {m : Mode} {s t : List Char} (h : m.skip s = t) : t <:+ s := h ▸ m.skip_suffix s

theorem tail_suffix_of_skip {m : Mode} {s r : List Char} {c : Char} (h : m.skip s = c :: r) : r <:+ s :=
  (List.suffix_cons c r).trans (suffix_of_skip h)

/-- The character that decides whether a dash makes a range. Of a comment it is the first character that is
not whitespace, and of blanks up to the end the first of them. -/
def next? (m : Mode) (s : List Char) : Option Char :=
  if m.spaced then
    match s.dropWhile isWhitespace with
    | [] => s.head?
    | '#' :: t => (t.dropWhile isWhitespace).head?.or s.head?
    | c :: _ => some c
  else s.head?

end Mode

end Preconditions.Text.Pattern
