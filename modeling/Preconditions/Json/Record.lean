import Preconditions.Json.Skipping

/-!
# Records

A record is read from an object, whose keys come in any order, or from a list of its fields in declared order.
The fields read so far stand in a draft. A known key may come once; an unknown one is passed over with its
value. Faults found in the fields as a whole are placed after the closing bracket, where it comes next.
-/

namespace Preconditions.Json

/-- A field of a record whose drafts are of type `σ`: reading its value gives a change of the draft. -/
structure Field (σ : Type) where
  name : String
  isGiven : σ → Bool
  reader : Reader (σ → σ)

structure RecordFormat (σ α : Type) where
  title : String
  fields : List (Field σ)
  draft : σ
  finish : σ → Except String α

def Field.of {σ α : Type} (name : String) (get : σ → Option α) (set : σ → α → σ) (reader : Reader α) :
    Field σ where
  name
  isGiven d := (get d).isSome
  reader := reader.map fun a d => set d a

/-! ## Objects -/

def nextMember (isFirst : Bool) (s : List Char) : Reading Bool :=
  match skipBlanks s with
  | [] => .error (.next .endInObject [])
  | c :: t =>
    if c = '}' then .ok (false, t)
    else if isFirst then if c = '"' then .ok (true, t) else .error (.next .expectedTextKey (c :: t))
    else if c = ',' then
      match skipBlanks t with
      | [] => .error (.next .endInValue [])
      | d :: u =>
        if d = '"' then .ok (true, u)
        else .error (.next (if d = '}' then .trailingComma else .expectedTextKey) (d :: u))
    else .error (.next .expectedObjectComma (c :: t))

theorem nextMember_within (isFirst : Bool) (s : List Char) : Within s (nextMember isFirst s) := by
  unfold nextMember
  split
  · exact within_next List.nil_suffix
  · rename_i c t hs
    have ht := tail_suffix_of_skipBlanks hs
    have hc := suffix_of_skipBlanks hs
    split
    · exact within_ok ht
    split
    · split
      · exact within_ok ht
      · exact within_next hc
    split
    · split
      · exact within_next List.nil_suffix
      · rename_i d u hu
        split
        · exact within_ok ((tail_suffix_of_skipBlanks hu).trans ht)
        · exact within_next ((suffix_of_skipBlanks hu).trans ht)
    · exact within_next hc

theorem nextMember_length_lt {isFirst b : Bool} {s r : List Char} (h : nextMember isFirst s = .ok (b, r)) :
    r.length < s.length := by
  unfold nextMember at h
  split at h
  · simp at h
  · rename_i c t hs
    have ht := tail_length_lt hs
    split at h
    · cases h; exact ht
    split at h
    · split at h
      · cases h; exact ht
      · simp at h
    split at h
    · split at h
      · simp at h
      · rename_i d u hu
        split at h
        · cases h; exact Nat.lt_trans (tail_length_lt hu) ht
        · simp at h
    · simp at h

def pastBrace (s : List Char) : List Char :=
  match skipBlanks s with
  | [] => []
  | c :: t => if c = '}' then t else c :: t

theorem pastBrace_suffix (s : List Char) : pastBrace s <:+ s := by
  unfold pastBrace
  split
  · exact List.nil_suffix
  · rename_i c t hs
    split
    · exact tail_suffix_of_skipBlanks hs
    · exact suffix_of_skipBlanks hs

namespace RecordFormat
variable {σ α : Type} (f : RecordFormat σ α)

def field? (key : List Char) : Option (Field σ) := f.fields.find? (·.name == String.ofList key)

def member (d : σ) (s : List Char) : Reading σ :=
  (textBody s).andThen fun key r =>
    match f.field? key with
    | some field =>
      if field.isGiven d then .error (.here (.duplicateField field.name) (pastBrace r))
      else (colon r).andThen fun _ t => (field.reader.run t).andThen fun change u => .ok (change d, u)
    | none => (colon r).andThen fun _ t => (skipValue t).andThen fun _ u => .ok (d, u)

theorem member_within (d : σ) (s : List Char) : Within s (f.member d s) := by
  refine (textBody_within s).andThen fun key r hr => ?_
  split
  · rename_i field _
    split
    · exact within_here ((pastBrace_suffix r).trans hr)
    · refine ((colon_within r).mono hr).andThen fun _ t ht => ?_
      exact ((field.reader.within t).mono ht).andThen fun _ _ hu => within_ok hu
  · refine ((colon_within r).mono hr).andThen fun _ t ht => ?_
    exact ((skipValue_within t).mono ht).andThen fun _ _ hu => within_ok hu

def members (isFirst : Bool) (d : σ) (s : List Char) : Reading α :=
  match _ : nextMember isFirst s with
  | .error e => .error e
  | .ok (false, r) =>
    match f.finish d with
    | .ok a => .ok (a, r)
    | .error name => .error (.here (.missingField name) r)
  | .ok (true, r) =>
    match _ : f.member d r with
    | .error e => .error e
    | .ok (d', t) => members false d' t
termination_by s.length
decreasing_by
  exact Nat.lt_of_le_of_lt (suffix_of_ok (f.member_within d r) ‹_›).length_le (nextMember_length_lt ‹_›)

theorem members_within (isFirst : Bool) (d : σ) (s : List Char) : Within s (f.members isFirst d s) := by
  fun_induction RecordFormat.members f isFirst d s with
  | case1 isFirst d s e h => have := nextMember_within isFirst s; rwa [h] at this
  | case2 isFirst d s r h => exact within_ok (suffix_of_ok (nextMember_within isFirst s) h)
  | case3 isFirst d s r h => exact within_here (suffix_of_ok (nextMember_within isFirst s) h)
  | case4 isFirst d s r h e h' =>
    have := f.member_within d r
    rw [h'] at this
    exact this.trans (suffix_of_ok (nextMember_within isFirst s) h)
  | case5 isFirst d s r h d' t h' ih =>
    have hr := suffix_of_ok (nextMember_within isFirst s) h
    exact ih.mono ((suffix_of_ok (f.member_within d r) h').trans hr)

end RecordFormat

/-! ## Lists -/

def nextElement (isFirst : Bool) (s : List Char) : Reading Bool :=
  match skipBlanks s with
  | [] => .error (.next .endInList [])
  | c :: t =>
    if c = ']' then .ok (false, t)
    else if isFirst then .ok (true, c :: t)
    else if c = ',' then
      match skipBlanks t with
      | [] => .error (.next .endInValue [])
      | d :: u => if d = ']' then .error (.next .trailingComma (d :: u)) else .ok (true, d :: u)
    else .error (.next .expectedListComma (c :: t))

theorem nextElement_within (isFirst : Bool) (s : List Char) : Within s (nextElement isFirst s) := by
  unfold nextElement
  split
  · exact within_next List.nil_suffix
  · rename_i c t hs
    have ht := tail_suffix_of_skipBlanks hs
    have hc := suffix_of_skipBlanks hs
    split
    · exact within_ok ht
    split
    · exact within_ok hc
    split
    · split
      · exact within_next List.nil_suffix
      · rename_i d u hu
        have hd := (suffix_of_skipBlanks hu).trans ht
        split
        · exact within_next hd
        · exact within_ok hd
    · exact within_next hc

def closeList (s : List Char) : Reading Unit :=
  match skipBlanks s with
  | [] => .error (.next .endInList [])
  | c :: t =>
    if c = ']' then .ok ((), t)
    else if c = ',' then
      let u := skipBlanks t
      .error (.next (if u.head? = some ']' then .trailingComma else .trailingCharacters) u)
    else .error (.next .trailingCharacters (c :: t))

theorem closeList_within (s : List Char) : Within s (closeList s) := by
  unfold closeList
  split
  · exact within_next List.nil_suffix
  · rename_i c t hs
    have ht := tail_suffix_of_skipBlanks hs
    split
    · exact within_ok ht
    split
    · exact within_next ((skipBlanks_suffix t).trans ht)
    · exact within_next (suffix_of_skipBlanks hs)

namespace RecordFormat
variable {σ α : Type} (f : RecordFormat σ α)

def fullLength : String :=
  f.title ++ " with " ++ toString f.fields.length ++ (if f.fields.length = 1 then " element" else " elements")

def finishList (n : Nat) (d : σ) (s : List Char) : Reading α :=
  match f.finish d with
  | .ok a => .ok (a, s)
  | .error _ => .error (.here (.invalidLength n f.fullLength) s)

theorem finishList_within (n : Nat) (d : σ) (s : List Char) : Within s (f.finishList n d s) := by
  unfold finishList
  split
  · exact within_ok List.suffix_rfl
  · exact within_here List.suffix_rfl

def elements : List (Field σ) → Nat → σ → List Char → Reading α
  | [], n, d, s => (closeList s).andThen fun _ r => f.finishList n d r
  | field :: fields, n, d, s =>
    (nextElement (n == 0) s).andThen fun more r =>
      if more then (field.reader.run r).andThen fun change t => elements fields (n + 1) (change d) t
      else f.finishList n d r

theorem elements_within : ∀ fields n d s, Within s (f.elements fields n d s)
  | [], n, d, s => (closeList_within s).andThen fun _ r hr => (f.finishList_within n d r).mono hr
  | field :: fields, n, d, s => by
    refine (nextElement_within _ s).andThen fun more r hr => ?_
    split
    · refine ((field.reader.within r).mono hr).andThen fun change t ht => ?_
      exact (elements_within fields (n + 1) (change d) t).mono ht
    · exact (f.finishList_within n d r).mono hr

def read (s : List Char) : Reading α :=
  match skipBlanks s with
  | '{' :: t => f.members true f.draft t
  | '[' :: t => f.elements f.fields 0 f.draft t
  | _ => (readToken s).andThen fun t r => .error (.here (.invalidType t f.title) r)

theorem read_within (s : List Char) : Within s (f.read s) := by
  unfold read
  split
  · rename_i t hs; exact (f.members_within true f.draft t).mono (tail_suffix_of_skipBlanks hs)
  · rename_i t hs; exact (f.elements_within f.fields 0 f.draft t).mono (tail_suffix_of_skipBlanks hs)
  · exact (readToken_within s).andThen fun _ _ h => within_here h

def reader : Reader α := ⟨f.read, f.read_within⟩

end RecordFormat

end Preconditions.Json
