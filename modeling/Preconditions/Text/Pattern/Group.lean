import Preconditions.Text.Alphabetic
import Preconditions.Text.Pattern.Mode

/-!
# Groups

A parenthesis opens a group, which may have a name or flags of its own, or sets flags for the rest of the
group that it stands in.
-/

namespace Preconditions.Text.Pattern

inductive Opening where
  | group (mode : Mode)
  | named (name : List Char)
  | directive (mode : Mode)
deriving DecidableEq, Repr

namespace Opening

def startsName (c : Char) : Bool := c = '_' || isAlphabetic c

def continuesName (c : Char) : Bool := ['_', '.', '[', ']'].contains c || isAlphanumeric c

def isName : List Char → Bool
  | [] => false
  | c :: s => startsName c && s.all continuesName

def named? (s : List Char) : Option (Opening × List Char) :=
  match s.dropWhile (· != '>') with
  | [] => none
  | _ :: rest =>
    let name := s.takeWhile (· != '>')
    if isName name then some (.named name, rest) else none

theorem named?_suffix {s : List Char} {o : Opening} {r : List Char} (h : named? s = some (o, r)) :
    r <:+ s := by
  unfold named? at h
  split at h
  case h_1 => cases h
  case h_2 c rest hd =>
    dsimp only at h
    split at h
    · cases h
      exact (List.suffix_cons c _).trans (hd ▸ List.dropWhile_suffix _)
    · cases h

def flagged? (m : Mode) (s : List Char) : Option (Opening × List Char) :=
  let flags := s.takeWhile fun c => c != ':' && c != ')'
  match s.dropWhile fun c => c != ':' && c != ')' with
  | [] => none
  | c :: rest =>
    if !areFlags flags then none
    else if c = ':' then some (.group (m.withFlags flags), rest)
    else if flags = [] then none
    else some (.directive (m.withFlags flags), rest)

theorem flagged?_suffix {m : Mode} {s : List Char} {o : Opening} {r : List Char}
    (h : flagged? m s = some (o, r)) : r <:+ s := by
  unfold flagged? at h
  dsimp only at h
  split at h
  case h_1 => cases h
  case h_2 c rest hd =>
    have hr : rest <:+ s := (List.suffix_cons c rest).trans (hd ▸ List.dropWhile_suffix _)
    split at h
    · cases h
    split at h
    · cases h; exact hr
    split at h
    · cases h
    · cases h; exact hr

end Opening

def opening? (m : Mode) (s : List Char) : Option (Opening × List Char) :=
  match m.skip s with
  | '?' :: 'P' :: '<' :: s => Opening.named? s
  | '?' :: '<' :: s => Opening.named? s
  | '?' :: s => Opening.flagged? m s
  | s => some (.group m, s)

theorem opening?_suffix {m : Mode} {s : List Char} {o : Opening} {r : List Char}
    (h : opening? m s = some (o, r)) : r <:+ s := by
  unfold opening? at h
  split at h
  case h_1 t ht =>
    exact (Opening.named?_suffix h).trans
      (((List.suffix_cons _ _).trans (List.suffix_cons _ _)).trans (Mode.tail_suffix_of_skip ht))
  case h_2 t ht =>
    exact (Opening.named?_suffix h).trans ((List.suffix_cons _ _).trans (Mode.tail_suffix_of_skip ht))
  case h_3 t _ _ ht => exact (Opening.flagged?_suffix h).trans (Mode.tail_suffix_of_skip ht)
  case h_4 => cases h; exact m.skip_suffix s

end Preconditions.Text.Pattern
