import Preconditions.Json.Reader
import Preconditions.Text.Hexadecimal

/-!
# Text literals

Reading undoes the escapes of a literal and refuses a surrogate without its partner. Skipping passes over a
literal and asks less of it: any four hexadecimal digits will do. Both start after the opening quote.
-/

namespace Preconditions.Json

open Text (byteCount hexValue? hexValue?_digitChar)

/-! ## Escapes -/

def hexUnit? (a b c d : Char) : Option Nat := do
  return (((← hexValue? a) * 16 + (← hexValue? b)) * 16 + (← hexValue? c)) * 16 + (← hexValue? d)

/-- Four hexadecimal digits. Four bytes are taken before they are looked at. -/
def hexUnit : List Char → Reading Nat
  | a :: b :: c :: d :: s =>
    match hexUnit? a b c d with
    | some u => .ok (u, s)
    | none => .error ⟨.invalidEscape, a :: b :: c :: d :: s, 4⟩
  | s => if byteCount s < 4 then .error (.here .endInText []) else .error ⟨.invalidEscape, s, 4⟩

theorem hexUnit_within (s : List Char) : Within s (hexUnit s) := by
  unfold hexUnit
  split
  · split
    · exact within_ok ⟨[_, _, _, _], rfl⟩
    · exact List.suffix_rfl
  · split
    · exact within_here List.nil_suffix
    · exact List.suffix_rfl

def isLeading (u : Nat) : Bool := 0xD800 ≤ u && u ≤ 0xDBFF

def isTrailing (u : Nat) : Bool := 0xDC00 ≤ u && u ≤ 0xDFFF

def pairChar (u v : Nat) : Char := Char.ofNat (0x10000 + (u - 0xD800) * 0x400 + (v - 0xDC00))

def pairLink (c : Char) : List Char → Reading Unit
  | [] => .error (.here .endInText [])
  | d :: s => if d = c then .ok ((), s) else .error (.next .unfinishedPair (d :: s))

theorem pairLink_within (c : Char) (s : List Char) : Within s (pairLink c s) := by
  unfold pairLink
  split
  · exact within_here List.suffix_rfl
  · split
    · exact within_ok (List.suffix_cons _ _)
    · exact within_next List.suffix_rfl

def trailingUnit (s : List Char) : Reading Nat :=
  (pairLink '\\' s).andThen fun _ s => (pairLink 'u' s).andThen fun _ s => hexUnit s

theorem trailingUnit_within (s : List Char) : Within s (trailingUnit s) :=
  (pairLink_within _ s).andThen fun _ r h => ((pairLink_within _ r).mono h).andThen fun _ t h' =>
    (hexUnit_within t).mono h'

def codeChar (s : List Char) : Reading Char :=
  (hexUnit s).andThen fun u s =>
    if isTrailing u then .error (.here .unpairedSurrogate s)
    else if isLeading u then
      (trailingUnit s).andThen fun v s =>
        if isTrailing v then .ok (pairChar u v, s) else .error (.here .unpairedSurrogate s)
    else .ok (Char.ofNat u, s)

theorem codeChar_within (s : List Char) : Within s (codeChar s) := by
  refine (hexUnit_within s).andThen fun u r h => ?_
  split
  · exact within_here h
  split
  · refine ((trailingUnit_within r).mono h).andThen fun v t h' => ?_
    split
    · exact within_ok h'
    · exact within_here h'
  · exact within_ok h

def shortEscape? : Char → Option Char
  | '"' => some '"'
  | '\\' => some '\\'
  | '/' => some '/'
  | 'b' => some '\x08'
  | 'f' => some '\x0c'
  | 'n' => some '\n'
  | 'r' => some '\r'
  | 't' => some '\t'
  | _ => none

def escape : List Char → Reading Char
  | [] => .error (.here .endInText [])
  | c :: s =>
    match shortEscape? c with
    | some d => .ok (d, s)
    | none => if c = 'u' then codeChar s else .error (.next .invalidEscape (c :: s))

theorem escape_within (s : List Char) : Within s (escape s) := by
  unfold escape
  split
  · exact within_here List.suffix_rfl
  · split
    · exact within_ok (List.suffix_cons _ _)
    · split
      · exact (codeChar_within _).mono (List.suffix_cons _ _)
      · exact within_next List.suffix_rfl

def skipEscape : List Char → Reading Unit
  | [] => .error (.here .endInText [])
  | c :: s =>
    match shortEscape? c with
    | some _ => .ok ((), s)
    | none =>
      if c = 'u' then (hexUnit s).andThen fun _ s => .ok ((), s) else .error (.next .invalidEscape (c :: s))

theorem skipEscape_within (s : List Char) : Within s (skipEscape s) := by
  unfold skipEscape
  split
  · exact within_here List.suffix_rfl
  · split
    · exact within_ok (List.suffix_cons _ _)
    · split
      · exact ((hexUnit_within _).mono (List.suffix_cons _ _)).andThen fun _ _ h => within_ok h
      · exact within_next List.suffix_rfl

/-! ## Literals -/

def isControl (c : Char) : Bool := c.toNat < 0x20

def textBody (s : List Char) : Reading (List Char) :=
  match s with
  | [] => .error (.here .endInText [])
  | c :: s =>
    if c = '"' then .ok ([], s)
    else if c = '\\' then
      match _ : escape s with
      | .ok (d, r) => (textBody r).andThen fun ds t => .ok (d :: ds, t)
      | .error f => .error f
    else if isControl c then .error (.next .controlCharacter (c :: s))
    else (textBody s).andThen fun ds t => .ok (c :: ds, t)
termination_by s.length
decreasing_by
  · have := (suffix_of_ok (escape_within s) ‹_›).length_le
    simp only [List.length_cons]; omega
  · simp

theorem textBody_within (s : List Char) : Within s (textBody s) := by
  fun_induction textBody s with
  | case1 => exact within_here List.suffix_rfl
  | case2 s => exact within_ok (List.suffix_cons _ _)
  | case3 s d r h _ ih =>
    have hr : r <:+ '\\' :: s := (suffix_of_ok (escape_within s) h).trans (List.suffix_cons _ _)
    exact (ih.mono hr).andThen fun _ _ h => within_ok h
  | case4 s f h _ =>
    have := escape_within s
    rw [h] at this
    exact this.trans (List.suffix_cons _ _)
  | case5 => exact within_next List.suffix_rfl
  | case6 c s _ _ _ ih => exact (ih.mono (List.suffix_cons _ _)).andThen fun _ _ h => within_ok h

def skipTextBody (s : List Char) : Reading Unit :=
  match s with
  | [] => .error (.here .endInText [])
  | c :: s =>
    if c = '"' then .ok ((), s)
    else if c = '\\' then
      match _ : skipEscape s with
      | .ok (_, r) => skipTextBody r
      | .error f => .error f
    else if isControl c then .error (.here .controlCharacter (c :: s))
    else skipTextBody s
termination_by s.length
decreasing_by
  · have := (suffix_of_ok (skipEscape_within s) ‹_›).length_le
    simp only [List.length_cons]; omega
  · simp

theorem skipTextBody_within (s : List Char) : Within s (skipTextBody s) := by
  fun_induction skipTextBody s with
  | case1 => exact within_here List.suffix_rfl
  | case2 s => exact within_ok (List.suffix_cons _ _)
  | case3 s _ r h _ ih => exact ih.mono ((suffix_of_ok (skipEscape_within s) h).trans (List.suffix_cons _ _))
  | case4 s f h _ =>
    have := skipEscape_within s
    rw [h] at this
    exact this.trans (List.suffix_cons _ _)
  | case5 => exact within_here List.suffix_rfl
  | case6 c s _ _ _ ih => exact ih.mono (List.suffix_cons _ _)

/-! ## Writing -/

def writtenChar (c : Char) : List Char :=
  if c = '"' then ['\\', '"']
  else if c = '\\' then ['\\', '\\']
  else if c = '\x08' then ['\\', 'b']
  else if c = '\x0c' then ['\\', 'f']
  else if c = '\n' then ['\\', 'n']
  else if c = '\r' then ['\\', 'r']
  else if c = '\t' then ['\\', 't']
  else if isControl c then
    ['\\', 'u', '0', '0', Nat.digitChar (c.toNat / 16), Nat.digitChar (c.toNat % 16)]
  else [c]

def writtenText (s : String) : List Char := '"' :: s.toList.flatMap writtenChar ++ ['"']

/-! ## Reading what is written -/

theorem textBody_escaped {s r : List Char} {d : Char} (h : escape s = .ok (d, r)) :
    textBody ('\\' :: s) = (textBody r).andThen fun ds t => .ok (d :: ds, t) := by
  rw [textBody]
  simp only [show ¬ ('\\' = '"') by decide, if_false, if_true]
  split
  · rename_i d' r' h'; rw [h] at h'; cases h'; rfl
  · rename_i f h'; rw [h] at h'; cases h'

theorem textBody_quote (s : List Char) : textBody ('"' :: s) = .ok ([], s) := by
  rw [textBody]; rfl

theorem textBody_plain {c : Char} (hq : c ≠ '"') (hb : c ≠ '\\') (hc : isControl c = false) (s : List Char) :
    textBody (c :: s) = (textBody s).andThen fun ds t => .ok (c :: ds, t) := by
  rw [textBody]; simp [hq, hb, hc]

theorem hexUnit_control {n : Nat} (h : n < 0x20) (s : List Char) :
    hexUnit ('0' :: '0' :: Nat.digitChar (n / 16) :: Nat.digitChar (n % 16) :: s) = .ok (n, s) := by
  have h0 : hexValue? '0' = some 0 := rfl
  simp only [hexUnit, hexUnit?, h0, hexValue?_digitChar (show n / 16 < 16 by omega),
    hexValue?_digitChar (Nat.mod_lt n (by decide : 16 > 0))]
  have : n / 16 * 16 + n % 16 = n := by omega
  simp [this]

theorem escape_control {c : Char} (h : isControl c = true) (s : List Char) :
    escape ('u' :: '0' :: '0' :: Nat.digitChar (c.toNat / 16) :: Nat.digitChar (c.toNat % 16) :: s) =
      .ok (c, s) := by
  have hc : c.toNat < 0x20 := by simpa [isControl] using h
  have ht : isTrailing c.toNat = false := by simp [isTrailing]; omega
  have hl : isLeading c.toNat = false := by simp [isLeading]; omega
  simp [escape, shortEscape?, codeChar, hexUnit_control hc, Reading.andThen, ht, hl]

theorem textBody_writtenChar (c : Char) (s : List Char) :
    textBody (writtenChar c ++ s) = (textBody s).andThen fun ds t => .ok (c :: ds, t) := by
  unfold writtenChar
  split
  · rename_i h; subst h; exact textBody_escaped rfl
  split
  · rename_i h; subst h; exact textBody_escaped rfl
  split
  · rename_i h; subst h; exact textBody_escaped rfl
  split
  · rename_i h; subst h; exact textBody_escaped rfl
  split
  · rename_i h; subst h; exact textBody_escaped rfl
  split
  · rename_i h; subst h; exact textBody_escaped rfl
  split
  · rename_i h; subst h; exact textBody_escaped rfl
  split
  · rename_i h; exact textBody_escaped (escape_control h s)
  · rename_i hq hb _ _ _ _ _ hc; exact textBody_plain hq hb (by simpa using hc) s

theorem textBody_written (cs s : List Char) :
    textBody (cs.flatMap writtenChar ++ '"' :: s) = .ok (cs, s) := by
  induction cs with
  | nil => exact textBody_quote s
  | cons c cs ih => rw [List.flatMap_cons, List.append_assoc, textBody_writtenChar, ih]; rfl

end Preconditions.Json
