import Preconditions.Json.Scalar

/-!
# Skipped values

The value of an unknown key is passed over, to any depth: the brackets that are open stand in a list, so depth
costs no more than length. No number is too large here, and surrogates need no partner.
-/

namespace Preconditions.Json

inductive Bracket where
  | list
  | object
deriving DecidableEq, Repr

namespace Bracket

def closing : Bracket → Char
  | list => ']'
  | object => '}'

def unfinished : Bracket → Cause
  | list => .endInList
  | object => .endInObject

def separation : Bracket → Cause
  | list => .expectedListComma
  | object => .expectedObjectComma

end Bracket

/-- What is due: a value, the first element of a bracket just opened or its end, or what follows a value. -/
inductive Due where
  | value
  | first (b : Bracket)
  | more
deriving DecidableEq, Repr

def Due.rank : Due → Nat
  | more => 0
  | value => 1
  | first _ => 2

def skipScalar : List Char → Reading Unit
  | [] => .error (.next .endInValue [])
  | c :: t =>
    if c = '"' then skipTextBody t
    else if startsNumber c then (scanLiteral .invalidNumber (c :: t)).andThen fun _ r => .ok ((), r)
    else if c = 'n' then word nullTail t
    else if c = 't' then word trueTail t
    else if c = 'f' then word falseTail t
    else .error (.next .expectedValue (c :: t))

theorem skipScalar_within (s : List Char) : Within s (skipScalar s) := by
  unfold skipScalar
  split
  · exact within_next List.nil_suffix
  · rename_i c t
    have ht := List.suffix_cons c t
    split
    · exact (skipTextBody_within t).mono ht
    split
    · exact (scanLiteral_within _ _).andThen fun _ _ h => within_ok h
    split
    · exact (word_within _ t).mono ht
    split
    · exact (word_within _ t).mono ht
    split
    · exact (word_within _ t).mono ht
    · exact within_next List.suffix_rfl

def skipKey (b : Bracket) (s : List Char) : Reading Unit :=
  match b with
  | .list => .ok ((), s)
  | .object =>
    match skipBlanks s with
    | [] => .error (.next .endInObject [])
    | c :: t =>
      if c = '"' then (skipTextBody t).andThen fun _ r => colon r
      else .error (.next .expectedTextKey (c :: t))

theorem skipKey_within (b : Bracket) (s : List Char) : Within s (skipKey b s) := by
  unfold skipKey
  split
  · exact within_ok List.suffix_rfl
  · split
    · exact within_next List.nil_suffix
    · rename_i c t hs
      split
      · exact ((skipTextBody_within t).mono (tail_suffix_of_skipBlanks hs)).andThen fun _ r hr =>
          (colon_within r).mono hr
      · exact within_next (suffix_of_skipBlanks hs)

theorem tail_length_lt {s t : List Char} {c : Char} (h : skipBlanks s = c :: t) : t.length < s.length := by
  have := skipBlanks_length_le s
  rw [h] at this
  exact this

def skip (due : Due) (opened : List Bracket) (s : List Char) : Reading Unit :=
  match due with
  | .value =>
    match _ : skipBlanks s with
    | [] => .error (.next .endInValue [])
    | c :: t =>
      if c = '[' then skip (.first .list) opened t
      else if c = '{' then skip (.first .object) opened t
      else
        match _ : skipScalar (c :: t) with
        | .ok (_, r) => skip .more opened r
        | .error f => .error f
  | .first b =>
    match _ : skipBlanks s with
    | [] => .error (.next b.unfinished [])
    | c :: t =>
      if c = b.closing then skip .more opened t
      else
        match _ : skipKey b (c :: t) with
        | .ok (_, r) => skip .value (b :: opened) r
        | .error f => .error f
  | .more =>
    match opened with
    | [] => .ok ((), s)
    | b :: opened =>
      match _ : skipBlanks s with
      | [] => .error (.next b.unfinished [])
      | c :: t =>
        if c = ',' then
          match _ : skipKey b t with
          | .ok (_, r) => skip .value (b :: opened) r
          | .error f => .error f
        else if c = b.closing then skip .more opened t
        else .error (.next b.separation (c :: t))
termination_by 3 * s.length + due.rank
decreasing_by
  all_goals have hlt := tail_length_lt ‹_›
  all_goals simp only [Due.rank]
  · omega
  · omega
  · have := Nat.le_trans (suffix_of_ok (skipScalar_within (c :: t)) ‹_›).length_le hlt; omega
  · omega
  · have := Nat.le_trans (suffix_of_ok (skipKey_within b (c :: t)) ‹_›).length_le hlt; omega
  · have := Nat.lt_of_le_of_lt (suffix_of_ok (skipKey_within b _) ‹_›).length_le hlt; omega
  · omega

theorem skip_within (due : Due) (opened : List Bracket) (s : List Char) : Within s (skip due opened s) := by
  fun_induction skip due opened s with
  | case1 => exact within_next List.nil_suffix
  | case2 _ _ _ hs ih => exact ih.mono (tail_suffix_of_skipBlanks hs)
  | case3 _ _ _ hs _ ih => exact ih.mono (tail_suffix_of_skipBlanks hs)
  | case4 _ _ c t hs _ _ _ r h ih =>
    exact ih.mono ((suffix_of_ok (skipScalar_within _) h).trans (suffix_of_skipBlanks hs))
  | case5 _ _ c t hs _ _ f h =>
    have := skipScalar_within (c :: t)
    rw [h] at this
    exact this.trans (suffix_of_skipBlanks hs)
  | case6 => exact within_next List.nil_suffix
  | case7 _ _ _ _ hs ih => exact ih.mono (tail_suffix_of_skipBlanks hs)
  | case8 _ _ b c t hs _ _ r h ih =>
    exact ih.mono ((suffix_of_ok (skipKey_within _ _) h).trans (suffix_of_skipBlanks hs))
  | case9 _ _ b c t hs _ f h =>
    have := skipKey_within b (c :: t)
    rw [h] at this
    exact this.trans (suffix_of_skipBlanks hs)
  | case10 => exact within_ok List.suffix_rfl
  | case11 => exact within_next List.nil_suffix
  | case12 _ b _ t _ r h hs ih =>
    exact ih.mono ((suffix_of_ok (skipKey_within _ _) h).trans (tail_suffix_of_skipBlanks hs))
  | case13 _ b _ t f h hs =>
    have := skipKey_within b t
    rw [h] at this
    exact this.trans (tail_suffix_of_skipBlanks hs)
  | case14 _ _ _ _ hs _ ih => exact ih.mono (tail_suffix_of_skipBlanks hs)
  | case15 _ _ _ _ _ hs => exact within_next (suffix_of_skipBlanks hs)

def skipValue (s : List Char) : Reading Unit := skip .value [] s

theorem skipValue_within (s : List Char) : Within s (skipValue s) := skip_within _ _ s

end Preconditions.Json
