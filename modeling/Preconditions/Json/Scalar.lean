import Preconditions.Json.NumberLiteral
import Preconditions.Json.TextLiteral

/-!
# Scalar values

A reader of a scalar takes one token and refuses a token of another kind after it.
-/

namespace Preconditions.Json

def nullTail : List Char := ['u', 'l', 'l']

def trueTail : List Char := ['r', 'u', 'e']

def falseTail : List Char := ['a', 'l', 's', 'e']

def startsNumber (c : Char) : Bool := c == '-' || c.isDigit

/-- The token at the start of a value. An opening bracket stays where it is. -/
def readToken (s : List Char) : Reading Token :=
  match skipBlanks s with
  | [] => .error (.next .endInValue [])
  | c :: t =>
    if c = '"' then (textBody t).andThen fun cs r => .ok (.text (String.ofList cs), r)
    else if startsNumber c then (readNumber (c :: t)).andThen fun n r => .ok (.number n, r)
    else if c = 'n' then (word nullTail t).andThen fun _ r => .ok (.null, r)
    else if c = 't' then (word trueTail t).andThen fun _ r => .ok (.boolean true, r)
    else if c = 'f' then (word falseTail t).andThen fun _ r => .ok (.boolean false, r)
    else if c = '[' then .ok (.list, c :: t)
    else if c = '{' then .ok (.object, c :: t)
    else .error (.next .expectedValue (c :: t))

theorem readToken_within (s : List Char) : Within s (readToken s) := by
  unfold readToken
  split
  · exact within_next List.nil_suffix
  · rename_i c t hs
    have hc := suffix_of_skipBlanks hs
    have ht := tail_suffix_of_skipBlanks hs
    split
    · exact ((textBody_within t).mono ht).andThen fun _ _ h => within_ok h
    split
    · exact ((readNumber_within _).mono hc).andThen fun _ _ h => within_ok h
    split
    · exact ((word_within _ t).mono ht).andThen fun _ _ h => within_ok h
    split
    · exact ((word_within _ t).mono ht).andThen fun _ _ h => within_ok h
    split
    · exact ((word_within _ t).mono ht).andThen fun _ _ h => within_ok h
    split
    · exact within_ok hc
    split
    · exact within_ok hc
    · exact within_next hc

def colon (s : List Char) : Reading Unit :=
  match skipBlanks s with
  | [] => .error (.next .endInObject [])
  | c :: t => if c = ':' then .ok ((), t) else .error (.next .expectedColon (c :: t))

theorem colon_within (s : List Char) : Within s (colon s) := by
  unfold colon
  split
  · exact within_next List.nil_suffix
  · rename_i c t hs
    split
    · exact within_ok (tail_suffix_of_skipBlanks hs)
    · exact within_next (suffix_of_skipBlanks hs)

namespace Reader
variable {α : Type}

def token : Reader Token := ⟨readToken, readToken_within⟩

def text : Reader String := token.refine fun
  | .text s => .ok s
  | t => .error (.invalidType t "a string")

def boolean : Reader Bool := token.refine fun
  | .boolean b => .ok b
  | t => .error (.invalidType t "a boolean")

def null : Reader Unit := token.refine fun
  | .null => .ok ()
  | t => .error (.invalidType t "unit")

def word16 : Reader UInt16 := token.refine fun
  | .number (.integer n) =>
    if 0 ≤ n ∧ n < UInt16.size then .ok (.ofNat n.toNat) else .error (.invalidValue n "u16")
  | t => .error (.invalidType t "u16")

def word64 : Reader UInt64 := token.refine fun
  | .number (.integer n) =>
    if 0 ≤ n ∧ n < UInt64.size then .ok (.ofNat n.toNat) else .error (.invalidValue n "usize")
  | t => .error (.invalidType t "usize")

def optional (r : Reader α) : Reader (Option α) where
  run s :=
    match skipBlanks s with
    | 'n' :: t => (word nullTail t).andThen fun _ u => .ok (none, u)
    | _ => (r.run s).andThen fun a u => .ok (some a, u)
  within s := by
    split
    · rename_i t hs
      exact ((word_within _ t).mono (tail_suffix_of_skipBlanks hs)).andThen fun _ _ h => within_ok h
    · exact (r.within s).andThen fun _ _ h => within_ok h

end Reader

/-! ## Enumerations -/

def variantName {α : Type} (members : List (String × α)) (s : List Char) : Reading α :=
  (textBody s).andThen fun cs r =>
    match members.lookup (String.ofList cs) with
    | some a => .ok (a, r)
    | none => .error (.here (.unknownVariant (String.ofList cs) (members.map (·.1))) r)

def closeVariant {α : Type} (a : α) (s : List Char) : Reading α :=
  match skipBlanks s with
  | [] => .error (.here .endInObject [])
  | c :: t => if c = '}' then .ok (a, t) else .error (.here .expectedValue (c :: t))

def variantObject {α : Type} (members : List (String × α)) (s : List Char) : Reading α :=
  match skipBlanks s with
  | [] => .error (.next .endInObject [])
  | c :: t =>
    if c = '"' then
      (variantName members t).andThen fun a r => (colon r).andThen fun _ r =>
        (Reader.null.run r).andThen fun _ r => closeVariant a r
    else .error (.next (if c = '}' then .expectedValue else .expectedTextKey) (c :: t))

def readVariant {α : Type} (members : List (String × α)) (s : List Char) : Reading α :=
  match skipBlanks s with
  | [] => .error (.next .endInValue [])
  | c :: t =>
    if c = '"' then variantName members t
    else if c = '{' then variantObject members t
    else .error (.next .expectedValue (c :: t))

section
variable {α : Type}

theorem variantName_within (members : List (String × α)) (s : List Char) :
    Within s (variantName members s) := by
  refine (textBody_within s).andThen fun cs r h => ?_
  split
  · exact within_ok h
  · exact within_here h

theorem closeVariant_within (a : α) (s : List Char) : Within s (closeVariant a s) := by
  unfold closeVariant
  split
  · exact within_here List.nil_suffix
  · rename_i c t hs
    split
    · exact within_ok (tail_suffix_of_skipBlanks hs)
    · exact within_here (suffix_of_skipBlanks hs)

theorem variantObject_within (members : List (String × α)) (s : List Char) :
    Within s (variantObject members s) := by
  unfold variantObject
  split
  · exact within_next List.nil_suffix
  · rename_i c t hs
    split
    · refine ((variantName_within members t).mono (tail_suffix_of_skipBlanks hs)).andThen fun a r hr => ?_
      refine ((colon_within r).mono hr).andThen fun _ u hu => ?_
      refine ((Reader.null.within u).mono hu).andThen fun _ v hv => ?_
      exact (closeVariant_within a v).mono hv
    · exact within_next (suffix_of_skipBlanks hs)

theorem readVariant_within (members : List (String × α)) (s : List Char) :
    Within s (readVariant members s) := by
  unfold readVariant
  split
  · exact within_next List.nil_suffix
  · rename_i c t hs
    split
    · exact (variantName_within members t).mono (tail_suffix_of_skipBlanks hs)
    split
    · exact (variantObject_within members t).mono (tail_suffix_of_skipBlanks hs)
    · exact within_next (suffix_of_skipBlanks hs)

def Reader.variant (members : List (String × α)) : Reader α :=
  ⟨readVariant members, readVariant_within members⟩

end

end Preconditions.Json
