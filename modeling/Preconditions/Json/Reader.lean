import Preconditions.Json.Fault

/-!
# Readers

A reader takes a value from the start of a text and returns it with the rest of the text, or a fault. What it
leaves, on either way out, is a final part of the text it was given: this bounds every loop that calls a
reader, and keeps the place of a fault inside the text.
-/

namespace Preconditions.Json

abbrev Reading (α : Type) := Except Fault (α × List Char)

def Reading.andThen {α β : Type} (x : Reading α) (k : α → List Char → Reading β) : Reading β :=
  match x with
  | .ok (a, rest) => k a rest
  | .error f => .error f

theorem Reading.andThen_eq_ok {α β : Type} {x : Reading α} {k : α → List Char → Reading β}
    {p : β × List Char} : x.andThen k = .ok p ↔ ∃ a r, x = .ok (a, r) ∧ k a r = .ok p := by
  rcases x with f | ⟨a, r⟩
  · simp [Reading.andThen]
  · constructor
    · exact fun h => ⟨a, r, rfl, h⟩
    · rintro ⟨_, _, h, h'⟩; cases h; exact h'

def Within {α : Type} (s : List Char) : Reading α → Prop
  | .ok (_, rest) => rest <:+ s
  | .error f => f.rest <:+ s

section
variable {α β : Type} {s t : List Char}

theorem Within.mono {x : Reading α} (h : Within t x) (hs : t <:+ s) : Within s x :=
  match x, h with
  | .ok _, h => List.IsSuffix.trans h hs
  | .error _, h => List.IsSuffix.trans h hs

theorem Within.andThen {x : Reading α} {k : α → List Char → Reading β} (h : Within s x)
    (hk : ∀ a r, r <:+ s → Within s (k a r)) : Within s (x.andThen k) :=
  match x, h with
  | .ok (a, r), h => hk a r h
  | .error _, h => h

theorem within_ok {a : α} {r : List Char} (h : r <:+ s) : Within s (.ok (a, r) : Reading α) := h

theorem within_here {c : Cause} {r : List Char} (h : r <:+ s) :
    Within s (.error (.here c r) : Reading α) := h

theorem within_next {c : Cause} {r : List Char} (h : r <:+ s) :
    Within s (.error (.next c r) : Reading α) := h

theorem suffix_of_ok {x : Reading α} {a : α} {r : List Char} (h : Within s x) (hx : x = .ok (a, r)) :
    r <:+ s := by
  subst hx; exact h

end

structure Reader (α : Type) where
  run : List Char → Reading α
  within : ∀ s, Within s (run s)

namespace Reader
variable {α β : Type}

def refine (r : Reader α) (f : α → Except Cause β) : Reader β where
  run s := (r.run s).andThen fun a rest =>
    match f a with
    | .ok b => .ok (b, rest)
    | .error c => .error (.here c rest)
  within s := (r.within s).andThen fun a rest h => by
    cases f a with
    | ok b => exact within_ok h
    | error c => exact within_here h

def map (f : α → β) (r : Reader α) : Reader β := r.refine fun a => .ok (f a)

end Reader

/-! ## Blanks and words -/

def isBlank (c : Char) : Bool := c == ' ' || c == '\n' || c == '\t' || c == '\r'

def skipBlanks (s : List Char) : List Char := s.dropWhile isBlank

theorem skipBlanks_suffix (s : List Char) : skipBlanks s <:+ s := List.dropWhile_suffix _

theorem skipBlanks_length_le (s : List Char) : (skipBlanks s).length ≤ s.length :=
  (skipBlanks_suffix s).length_le

theorem suffix_of_skipBlanks {s t : List Char} (h : skipBlanks s = t) : t <:+ s := h ▸ skipBlanks_suffix s

theorem tail_suffix_of_skipBlanks {s r : List Char} {c : Char} (h : skipBlanks s = c :: r) : r <:+ s :=
  (List.suffix_cons c r).trans (suffix_of_skipBlanks h)

theorem skipBlanks_eq_self {c : Char} {s : List Char} (h : isBlank c = false) :
    skipBlanks (c :: s) = c :: s := by
  simp [skipBlanks, h]

/-- Takes the given letters; the first that differs is taken before the fault is found. -/
def word : List Char → List Char → Reading Unit
  | [], s => .ok ((), s)
  | _ :: _, [] => .error (.here .endInValue [])
  | w :: ws, c :: s => if c = w then word ws s else .error (.next .expectedWord (c :: s))

theorem word_within : ∀ w s, Within s (word w s)
  | [], _ => within_ok List.suffix_rfl
  | _ :: _, [] => within_here List.suffix_rfl
  | w :: ws, c :: s => by
    unfold word
    split
    · exact (word_within ws s).mono (List.suffix_cons _ _)
    · exact within_next List.suffix_rfl

theorem word_append (w s : List Char) : word w (w ++ s) = .ok ((), s) := by
  induction w with
  | nil => rfl
  | cons c w ih => simpa [word] using ih

theorem eq_append_of_word {w s r : List Char} (h : word w s = .ok ((), r)) : s = w ++ r := by
  fun_induction word w s with
  | case1 => simp_all
  | case2 => simp at h
  | case3 w ws s ih => simp [ih h]
  | case4 => simp at h

end Preconditions.Json
