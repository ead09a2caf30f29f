import Preconditions.Json.Reader

/-!
# Number literals

A literal is scanned into its digits first and valued afterwards. Its significand is kept in 64 bits: digits
that no longer fit count as powers of ten before the point and as nothing after it.
-/

namespace Preconditions.Json

open Decimal (Double)

-- powers are core's own, also where another library brings its own
attribute [local instance (high)] instPowNat

structure Exponent where
  negative : Bool
  digits : List Char
deriving DecidableEq, Repr

/-- The digits of a number; there are none after the point where no point is written. -/
structure Literal where
  negative : Bool
  whole : List Char
  fraction : List Char
  exponent : Option Exponent
deriving DecidableEq, Repr

/-! ## Scanning

`ending` is the cause to name where the text ends before a digit that is due.
-/

/-- At least one digit, with no zero before another digit; a first character that is none is taken before the
fault is found. -/
def wholePart (ending : Cause) : List Char → Reading (List Char)
  | [] => .error (.here ending [])
  | c :: s =>
    if c = '0' then if s.head?.any Char.isDigit then .error (.next .invalidNumber s) else .ok ([c], s)
    else if c.isDigit then .ok (c :: s.takeWhile Char.isDigit, s.dropWhile Char.isDigit)
    else .error (.next .invalidNumber (c :: s))

def fractionPart (ending : Cause) : List Char → Reading (List Char)
  | '.' :: s =>
    match s.takeWhile Char.isDigit with
    | [] => .error (.next (if s = [] then ending else .invalidNumber) s)
    | d :: ds => .ok (d :: ds, s.dropWhile Char.isDigit)
  | s => .ok ([], s)

def exponentSign : List Char → Bool × List Char
  | '-' :: s => (true, s)
  | '+' :: s => (false, s)
  | s => (false, s)

def exponentDigits (ending : Cause) : List Char → Reading (List Char)
  | [] => .error (.here ending [])
  | c :: s =>
    if c.isDigit then .ok (c :: s.takeWhile Char.isDigit, s.dropWhile Char.isDigit)
    else .error (.next .invalidNumber (c :: s))

def exponentPart (ending : Cause) : List Char → Reading (Option Exponent)
  | [] => .ok (none, [])
  | c :: s =>
    if c = 'e' ∨ c = 'E' then
      let (negative, s) := exponentSign s
      (exponentDigits ending s).andThen fun digits s => .ok (some ⟨negative, digits⟩, s)
    else .ok (none, c :: s)

def minusSign : List Char → Bool × List Char
  | '-' :: s => (true, s)
  | s => (false, s)

def scanLiteral (ending : Cause) (s : List Char) : Reading Literal :=
  let (negative, s) := minusSign s
  (wholePart ending s).andThen fun whole s =>
  (fractionPart ending s).andThen fun fraction s =>
  (exponentPart ending s).andThen fun exponent s => .ok (⟨negative, whole, fraction, exponent⟩, s)

theorem dropWhile_suffix_cons (p : Char → Bool) (c : Char) (s : List Char) : s.dropWhile p <:+ c :: s :=
  (List.dropWhile_suffix p).trans (List.suffix_cons c s)

theorem wholePart_within (ending : Cause) (s : List Char) : Within s (wholePart ending s) := by
  unfold wholePart
  split
  · exact within_here List.suffix_rfl
  · split
    · split
      · exact within_next (List.suffix_cons _ _)
      · exact within_ok (List.suffix_cons _ _)
    · split
      · exact within_ok (dropWhile_suffix_cons _ _ _)
      · exact within_next List.suffix_rfl

theorem fractionPart_within (ending : Cause) (s : List Char) : Within s (fractionPart ending s) := by
  unfold fractionPart
  split
  · split
    · exact within_next (List.suffix_cons _ _)
    · exact within_ok (dropWhile_suffix_cons _ _ _)
  · exact within_ok List.suffix_rfl

theorem exponentSign_suffix (s : List Char) : (exponentSign s).2 <:+ s := by
  unfold exponentSign
  split
  · exact List.suffix_cons _ _
  · exact List.suffix_cons _ _
  · exact List.suffix_rfl

theorem exponentDigits_within (ending : Cause) (s : List Char) : Within s (exponentDigits ending s) := by
  unfold exponentDigits
  split
  · exact within_here List.suffix_rfl
  · split
    · exact within_ok (dropWhile_suffix_cons _ _ _)
    · exact within_next List.suffix_rfl

theorem exponentPart_within (ending : Cause) (s : List Char) : Within s (exponentPart ending s) := by
  unfold exponentPart
  split
  · exact within_ok List.suffix_rfl
  · split
    · rename_i c s _
      have hs := (exponentSign_suffix s).trans (List.suffix_cons c s)
      exact ((exponentDigits_within ending _).mono hs).andThen fun _ _ h => within_ok h
    · exact within_ok List.suffix_rfl

theorem minusSign_suffix (s : List Char) : (minusSign s).2 <:+ s := by
  unfold minusSign
  split
  · exact List.suffix_cons _ _
  · exact List.suffix_rfl

theorem scanLiteral_within (ending : Cause) (s : List Char) : Within s (scanLiteral ending s) :=
  ((wholePart_within ending _).mono (minusSign_suffix s)).andThen fun _ t ht =>
    ((fractionPart_within ending t).mono ht).andThen fun _ u hu =>
      ((exponentPart_within ending u).mono hu).andThen fun _ _ hv => within_ok hv

/-! ## Values -/

def digitValue (c : Char) : Nat := c.toNat - 48

/-- A number below `2 ^ 64`, the power of ten it is to be taken times, and whether a digit was left out. -/
structure Significand where
  value : Nat
  power : Int
  full : Bool
deriving DecidableEq, Repr

namespace Significand

/-- Takes one more digit while the value stays below `2 ^ 64`. A digit taken moves the power of ten by
`taken`, one left out by `left`. -/
def push (taken left : Int) (a : Significand) (c : Char) : Significand :=
  let v := 10 * a.value + digitValue c
  if a.full || 2 ^ (64 : Nat) ≤ v then ⟨a.value, a.power + left, true⟩ else ⟨v, a.power + taken, false⟩

def ofWhole (ds : List Char) : Significand := ds.foldl (push 0 1) ⟨0, 0, false⟩

/-- Digits after the point are taken anew, even where one before it was left out. -/
def withFraction (a : Significand) (ds : List Char) : Significand :=
  ds.foldl (push (-1) 0) { a with full := false }

end Significand

def exponentLimit : Nat := 2 ^ (31 : Nat) - 1

def pastLimit (n : Nat) : List Char → Option (List Char)
  | [] => none
  | c :: ds => if exponentLimit < 10 * n + digitValue c then some ds else pastLimit (10 * n + digitValue c) ds

namespace Literal

def significand (l : Literal) : Significand := (Significand.ofWhole l.whole).withFraction l.fraction

def exponentValue (l : Literal) : Int :=
  match l.exponent with
  | none => 0
  | some e => if e.negative then -Nat.ofDigitChars 10 e.digits 0 else Nat.ofDigitChars 10 e.digits 0

/-- The integer of a literal without point and exponent, if 64 bits hold it. A negative zero is no integer. -/
def integer? (l : Literal) : Option Int :=
  if l.fraction = [] ∧ l.exponent = none then
    let n := Nat.ofDigitChars 10 l.whole 0
    if l.negative then if 0 < n ∧ n ≤ 2 ^ (63 : Nat) then some (-n) else none
    else if n < 2 ^ (64 : Nat) then some n else none
  else none

def double? (l : Literal) : Option Double :=
  let a := l.significand
  (Double.ofDecimal a.value (a.power + l.exponentValue)).map (·.withSign l.negative)

def number? (l : Literal) : Option Number :=
  match l.integer? with
  | some n => some (.integer n)
  | none => l.double?.map .double

def excess (l : Literal) : Option (List Char) := l.exponent.bind fun e => pastLimit 0 e.digits

def vanishes (l : Literal) : Bool := l.significand.value == 0 || l.exponent.any (·.negative)

end Literal

/-- A number that is too large is found out once all of it is taken, except that an exponent past its limit is
found out at the digit that takes it there. -/
def readNumber (s : List Char) : Reading Number :=
  (scanLiteral .endInValue s).andThen fun l rest =>
    match l.excess with
    | some left =>
      if l.vanishes then .ok (.double (Double.zero.withSign l.negative), rest)
      else .error (.here .numberOutOfRange (left ++ rest))
    | none =>
      match l.number? with
      | some n => .ok (n, rest)
      | none => .error (.here .numberOutOfRange rest)

theorem exponentDigits_eq {ending : Cause} {s ds r : List Char} (h : exponentDigits ending s = .ok (ds, r)) :
    s = ds ++ r := by
  unfold exponentDigits at h
  split at h
  · simp at h
  · split at h
    · simp only [Except.ok.injEq, Prod.mk.injEq] at h
      obtain ⟨rfl, rfl⟩ := h
      simp
    · simp at h

theorem pastLimit_suffix {n : Nat} {ds left : List Char} (h : pastLimit n ds = some left) : left <:+ ds := by
  fun_induction pastLimit n ds with
  | case1 => simp at h
  | case2 => simp only [Option.some.injEq] at h; exact h ▸ List.suffix_cons _ _
  | case3 _ _ _ _ ih => exact (ih h).trans (List.suffix_cons _ _)

theorem exponentPart_suffix {ending : Cause} {s r : List Char} {e : Exponent}
    (h : exponentPart ending s = .ok (some e, r)) : e.digits ++ r <:+ s := by
  unfold exponentPart at h
  split at h
  · simp at h
  · rename_i c t
    split at h
    · obtain ⟨ds, u, hd, hu⟩ := Reading.andThen_eq_ok.1 h
      simp only [Except.ok.injEq, Prod.mk.injEq, Option.some.injEq] at hu
      obtain ⟨rfl, rfl⟩ := hu
      rw [← exponentDigits_eq hd]
      exact (exponentSign_suffix t).trans (List.suffix_cons _ _)
    · simp at h

theorem excess_suffix {ending : Cause} {s r left : List Char} {l : Literal}
    (h : scanLiteral ending s = .ok (l, r)) (hl : l.excess = some left) : left ++ r <:+ s := by
  obtain ⟨whole, t, ht, h⟩ := Reading.andThen_eq_ok.1 h
  obtain ⟨fraction, u, hu, h⟩ := Reading.andThen_eq_ok.1 h
  obtain ⟨exponent, v, hv, h⟩ := Reading.andThen_eq_ok.1 h
  simp only [Except.ok.injEq, Prod.mk.injEq] at h
  obtain ⟨rfl, rfl⟩ := h
  obtain ⟨e, he, hp⟩ := Option.bind_eq_some_iff.1 hl
  simp only at he
  subst he
  have hs := (suffix_of_ok (wholePart_within ending _) ht).trans (minusSign_suffix s)
  have hs := (suffix_of_ok (fractionPart_within ending t) hu).trans hs
  obtain ⟨w, hw⟩ := pastLimit_suffix hp
  have he : left ++ v <:+ e.digits ++ v := ⟨w, by rw [← List.append_assoc, hw]⟩
  exact (he.trans (exponentPart_suffix hv)).trans hs

theorem readNumber_within (s : List Char) : Within s (readNumber s) := by
  unfold readNumber
  cases hx : scanLiteral .endInValue s with
  | error f => have := scanLiteral_within .endInValue s; rw [hx] at this; exact this
  | ok p =>
    obtain ⟨l, rest⟩ := p
    have hr := suffix_of_ok (scanLiteral_within .endInValue s) hx
    simp only [Reading.andThen]
    split
    · rename_i left hl
      split
      · exact within_ok hr
      · exact within_here (excess_suffix hx hl)
    · split
      · exact within_ok hr
      · exact within_here hr

end Preconditions.Json
