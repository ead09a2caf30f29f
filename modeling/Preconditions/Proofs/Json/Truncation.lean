import Preconditions.Proofs.Json.Fields

/-!
# Readers on a text that is cut off

An incremental reader does not look past what it takes. On a text that is cut off it takes the same, or it finds
the end of the text where something is still due. Texts, words and the signs between the members of a record are
read in this way. A number is not: what is left of its digits may be a number as well.
-/

namespace Preconditions.Json

open Text (byteCount hexValue?)

/-- The end of the text is found where something is due. -/
def Starved {α : Type} (x : Reading α) : Prop := ∃ f, x = .error f ∧ f.cause.category = .truncated

/-- What `x` takes is taken by `y` as well, which leaves a text that ends before `u`; or `y` ends too early. -/
def Follows {α : Type} (u : List Char) (x y : Reading α) : Prop :=
  ∀ a r, x = .ok (a, r) → (∃ q, r = q ++ u ∧ y = .ok (a, q)) ∨ Starved y

def Incremental {α : Type} (P : List Char → Reading α) : Prop := ∀ p u, Follows u (P (p ++ u)) (P p)

section
variable {α β : Type}

theorem starved_here {c : Cause} (h : c.category = .truncated) (s : List Char) :
    Starved (.error (.here c s) : Reading α) := ⟨_, rfl, h⟩

theorem Starved.andThen {x : Reading α} (h : Starved x) (k : α → List Char → Reading β) : Starved (x.andThen k) := by
  obtain ⟨f, rfl, hf⟩ := h
  exact ⟨f, rfl, hf⟩

/-! ## Composition -/

theorem follows_ok (a : α) (q u : List Char) : Follows u (.ok (a, q ++ u)) (.ok (a, q)) := by
  intro b r h
  cases h
  exact .inl ⟨q, rfl, rfl⟩

theorem follows_error (f : Fault) (u : List Char) (y : Reading α) : Follows u (.error f) y :=
  fun _ _ h => nomatch h

theorem Starved.follows {y : Reading α} (h : Starved y) (u : List Char) (x : Reading α) : Follows u x y :=
  fun _ _ _ => .inr h

theorem Follows.andThen {u : List Char} {x y : Reading α} {k : α → List Char → Reading β} (h : Follows u x y)
    (hk : ∀ a q, Follows u (k a (q ++ u)) (k a q)) : Follows u (x.andThen k) (y.andThen k) := by
  intro b r hb
  obtain ⟨a, t, hx, hb⟩ := Reading.andThen_eq_ok.1 hb
  obtain ⟨q, rfl, rfl⟩ | hs := h a t hx
  · exact hk a q b r hb
  · exact .inr (hs.andThen k)

theorem Incremental.andThen {P : List Char → Reading α} {K : α → List Char → Reading β} (hP : Incremental P)
    (hK : ∀ a, Incremental (K a)) : Incremental fun s => (P s).andThen K :=
  fun p u => (hP p u).andThen fun a q => hK a q u

theorem incremental_ok (a : α) : Incremental fun s => .ok (a, s) := fun p u => follows_ok a p u

theorem incremental_error (f : List Char → Fault) : Incremental fun s => (.error (f s) : Reading α) :=
  fun _ u => follows_error _ u _

theorem incremental_ite {c : Prop} [Decidable c] {P Q : List Char → Reading α} (hP : c → Incremental P)
    (hQ : ¬ c → Incremental Q) : Incremental fun s => if c then P s else Q s := by
  by_cases hc : c
  · simp only [if_pos hc]
    exact hP hc
  · simp only [if_neg hc]
    exact hQ hc

theorem incremental_expect (c : Prop) [Decidable c] (a : α) (f : List Char → Fault) :
    Incremental fun s => if c then .ok (a, s) else .error (f s) :=
  incremental_ite (fun _ => incremental_ok a) fun _ => incremental_error f

theorem incremental_cons {P : List Char → Reading α} (hnil : Starved (P []))
    (hcons : ∀ c, Incremental fun s => P (c :: s)) : Incremental P := by
  intro p u
  cases p with
  | nil => exact hnil.follows u _
  | cons c p => exact hcons c p u

theorem not_blank_of_skipBlanks {s t : List Char} {c : Char} (h : skipBlanks s = c :: t) : isBlank c = false := by
  have hs := List.head?_dropWhile_not isBlank s
  rw [show s.dropWhile isBlank = c :: t from h] at hs
  simpa using hs

theorem skipBlanks_skipBlanks (s : List Char) : skipBlanks (skipBlanks s) = skipBlanks s := by
  cases h : skipBlanks s with
  | nil => rfl
  | cons c t => exact skipBlanks_eq_self (not_blank_of_skipBlanks h)

theorem skipBlanks_append_of_cons {p t : List Char} {c : Char} (h : skipBlanks p = c :: t) (u : List Char) :
    skipBlanks (p ++ u) = c :: (t ++ u) := by
  obtain ⟨b, hb, hp⟩ := exists_blank p
  rw [hp, h, List.append_assoc, List.cons_append]
  exact skipBlanks_append_cons hb (not_blank_of_skipBlanks h) (t ++ u)

theorem incremental_skipBlanks {P : List Char → Reading α} (htrim : ∀ s, P (skipBlanks s) = P s)
    (hnil : Starved (P [])) (hcons : ∀ c, isBlank c = false → Incremental fun s => P (c :: s)) : Incremental P := by
  intro p u
  rw [← htrim p]
  cases hp : skipBlanks p with
  | nil => exact hnil.follows u _
  | cons c q =>
    rw [← htrim (p ++ u), skipBlanks_append_of_cons hp]
    exact hcons c (not_blank_of_skipBlanks hp) q u

theorem incremental_blanks {f : Fault} (hf : f.cause.category = .truncated) {K : Char → List Char → Reading α}
    (hK : ∀ c, Incremental (K c)) :
    Incremental fun s =>
      match skipBlanks s with
      | [] => .error f
      | c :: t => K c t := by
  apply incremental_skipBlanks
  · intro s
    simp only [skipBlanks_skipBlanks]
  · exact ⟨f, rfl, hf⟩
  · intro c hc
    simp only [skipBlanks_eq_self hc]
    exact hK c

end

/-! ## Signs and words -/

theorem incremental_word (w : List Char) : Incremental (word w) := by
  induction w with
  | nil => exact incremental_ok ()
  | cons c w ih =>
    apply incremental_cons
    · exact starved_here rfl _
    · intro d
      exact incremental_ite (fun _ => ih) fun _ => incremental_error _

theorem incremental_colon : Incremental colon := incremental_blanks rfl fun _ => incremental_expect _ () _

theorem incremental_nextMember (isFirst : Bool) : Incremental (nextMember isFirst) := by
  apply incremental_blanks rfl
  intro c
  apply incremental_ite
  · exact fun _ => incremental_ok false
  intro _
  apply incremental_ite
  · exact fun _ => incremental_expect _ true _
  intro _
  apply incremental_ite
  · exact fun _ => incremental_blanks rfl fun d => incremental_expect _ true _
  · exact fun _ => incremental_error _

/-! ## Text literals -/

theorem incremental_pairLink (c : Char) : Incremental (pairLink c) := by
  apply incremental_cons
  · exact starved_here rfl _
  · exact fun d => incremental_expect _ () _

theorem utf8Size_of_hexValue? {c : Char} {n : Nat} (h : hexValue? c = some n) : c.utf8Size = 1 := by
  rw [Char.utf8Size_eq_one_iff]
  unfold hexValue? at h
  split at h
  · rename_i hc
    exact UInt32.le_trans hc.2 (by decide)
  split at h
  · rename_i hc
    exact UInt32.le_trans hc.2 (by decide)
  split at h
  · rename_i hc
    exact UInt32.le_trans hc.2 (by decide)
  · cases h

theorem hexUnit_digits {s r : List Char} {n : Nat} (h : hexUnit s = .ok (n, r)) :
    ∃ a b c d, s = a :: b :: c :: d :: r ∧ hexUnit? a b c d = some n := by
  unfold hexUnit at h
  split at h
  · split at h
    · rename_i hn
      cases h
      exact ⟨_, _, _, _, rfl, hn⟩
    · cases h
  · split at h <;> cases h

theorem hexUnit_short {p : List Char} (hl : p.length < 4) (hb : byteCount p < 4) : Starved (hexUnit p) := by
  unfold hexUnit
  split
  · simp only [List.length_cons] at hl
    omega
  · rw [if_pos hb]
    exact starved_here rfl _

theorem cut_of_hexUnit? {p u r : List Char} {a b c d : Char} {n : Nat} (hs : p ++ u = a :: b :: c :: d :: r)
    (hn : hexUnit? a b c d = some n) :
    (p.length < 4 ∧ byteCount p < 4) ∨ ∃ q, p = a :: b :: c :: d :: q ∧ r = q ++ u := by
  simp only [hexUnit?, Option.bind_eq_bind, Option.bind_eq_some_iff] at hn
  obtain ⟨_, ha, _, hb, _, hc, _⟩ := hn
  have ha := utf8Size_of_hexValue? ha
  have hb := utf8Size_of_hexValue? hb
  have hc := utf8Size_of_hexValue? hc
  rcases p with _ | ⟨x, _ | ⟨y, _ | ⟨z, _ | ⟨w, q⟩⟩⟩⟩ <;> cases hs
  · exact .inl ⟨by decide, by decide⟩
  · exact .inl ⟨by simp, by simp [byteCount, ha]⟩
  · exact .inl ⟨by simp, by simp [byteCount, ha, hb]⟩
  · exact .inl ⟨by simp, by simp [byteCount, ha, hb, hc]⟩
  · exact .inr ⟨q, rfl, rfl⟩

theorem incremental_hexUnit : Incremental hexUnit := by
  intro p u n r h
  obtain ⟨a, b, c, d, hs, hn⟩ := hexUnit_digits h
  obtain ⟨hl, hb⟩ | ⟨q, rfl, rfl⟩ := cut_of_hexUnit? hs hn
  · exact .inr (hexUnit_short hl hb)
  · exact .inl ⟨q, rfl, by rw [hexUnit, hn]⟩

theorem incremental_codeChar : Incremental codeChar := by
  apply incremental_hexUnit.andThen
  intro u
  apply incremental_ite
  · exact fun _ => incremental_error _
  · intro _
    apply incremental_ite
    · intro _
      have ht : Incremental trailingUnit :=
        (incremental_pairLink '\\').andThen fun _ => (incremental_pairLink 'u').andThen fun _ => incremental_hexUnit
      apply ht.andThen
      intro v
      exact incremental_expect _ _ _
    · exact fun _ => incremental_ok _

theorem incremental_escape : Incremental escape := by
  apply incremental_cons
  · exact starved_here rfl _
  · intro c
    simp only [escape]
    cases shortEscape? c with
    | some d => exact incremental_ok d
    | none => exact incremental_ite (fun _ => incremental_codeChar) fun _ => incremental_error _

theorem textBody_escape_error {s : List Char} {f : Fault} (h : escape s = .error f) :
    textBody ('\\' :: s) = .error f := by
  rw [textBody]
  simp only [show ¬ ('\\' = '"') by decide, if_false, if_true]
  split <;> rename_i h' <;> rw [h] at h' <;> cases h'
  rfl

theorem starved_textBody : Starved (textBody []) := by
  rw [textBody]
  exact starved_here rfl _

theorem incremental_textBody : Incremental textBody := by
  intro p u
  generalize hs : p ++ u = s
  fun_induction textBody s generalizing p with
  | case1 => exact follows_error _ u _
  | case2 s =>
    cases p with
    | nil => exact starved_textBody.follows u _
    | cons c p =>
      cases hs
      rw [textBody_quote]
      exact follows_ok [] p u
  | case3 s d t he _ ih =>
    cases p with
    | nil => exact starved_textBody.follows u _
    | cons c p =>
      cases hs
      obtain ⟨q, rfl, hq⟩ | ⟨f, hf, hc⟩ := incremental_escape p u d t he
      · rw [textBody_escaped hq]
        exact (ih q rfl).andThen fun _ _ => follows_ok _ _ _
      · rw [textBody_escape_error hf]
        exact Starved.follows ⟨f, rfl, hc⟩ u _
  | case4 => exact follows_error _ u _
  | case5 => exact follows_error _ u _
  | case6 c s hq hb hc ih =>
    cases p with
    | nil => exact starved_textBody.follows u _
    | cons c p =>
      cases hs
      rw [textBody_plain hq hb (Bool.eq_false_iff.2 hc)]
      exact (ih p rfl).andThen fun _ _ => follows_ok _ _ _

/-! ## Scalars -/

theorem readToken_skipBlanks (s : List Char) : readToken (skipBlanks s) = readToken s := by
  simp only [readToken, skipBlanks_skipBlanks]

theorem incremental_readToken {c : Char} (hc : isBlank c = false) (hn : startsNumber c = false) :
    Incremental fun s => readToken (c :: s) := by
  simp only [readToken, skipBlanks_eq_self hc, hn]
  apply incremental_ite
  · exact fun _ => incremental_textBody.andThen fun cs => incremental_ok _
  intro _
  apply incremental_ite
  · exact fun h => absurd h Bool.false_ne_true
  intro _
  apply incremental_ite
  · exact fun _ => (incremental_word _).andThen fun _ => incremental_ok _
  intro _
  apply incremental_ite
  · exact fun _ => (incremental_word _).andThen fun _ => incremental_ok _
  intro _
  apply incremental_ite
  · exact fun _ => (incremental_word _).andThen fun _ => incremental_ok _
  intro _
  apply incremental_ite
  · exact fun _ => fun p u => follows_ok _ (c :: p) u
  intro _
  apply incremental_ite
  · exact fun _ => fun p u => follows_ok _ (c :: p) u
  · exact fun _ => incremental_error _

theorem number_of_readToken {c : Char} {s r : List Char} {t : Token} (hc : isBlank c = false)
    (hn : startsNumber c = true) (h : readToken (c :: s) = .ok (t, r)) : ∃ n, t = .number n := by
  have hq : c ≠ '"' := by
    rintro rfl
    cases hn
  simp only [readToken, skipBlanks_eq_self hc, if_neg hq, if_pos hn] at h
  obtain ⟨n, v, -, hk⟩ := Reading.andThen_eq_ok.1 h
  cases hk
  exact ⟨n, rfl⟩

theorem incremental_refine {α : Type} {f : Token → Except Cause α} (hf : ∀ n a, f (.number n) ≠ .ok a) :
    Incremental (Reader.token.refine f).run := by
  apply incremental_skipBlanks
  · intro s
    show (readToken (skipBlanks s)).andThen _ = (readToken s).andThen _
    rw [readToken_skipBlanks]
  · exact ⟨.next .endInValue [], rfl, rfl⟩
  intro c hc
  by_cases hn : startsNumber c = true
  · intro p u a r h
    obtain ⟨t, v, ht, hk⟩ := Reading.andThen_eq_ok.1 h
    obtain ⟨n, rfl⟩ := number_of_readToken hc hn ht
    split at hk
    · rename_i b hb
      exact absurd hb (hf n b)
    · cases hk
  · refine (incremental_readToken hc (Bool.eq_false_iff.2 hn)).andThen fun t => ?_
    cases f t with
    | ok a => exact incremental_ok a
    | error e => exact incremental_error _

theorem incremental_text : Incremental Reader.text.run := incremental_refine fun _ _ h => nomatch h

theorem incremental_boolean : Incremental Reader.boolean.run := incremental_refine fun _ _ h => nomatch h

theorem incremental_null : Incremental Reader.null.run := incremental_refine fun _ _ h => nomatch h

/-! ## Enumerations -/

section
variable {α : Type} (members : List (String × α))

theorem incremental_variantName : Incremental (variantName members) := by
  refine incremental_textBody.andThen fun cs => ?_
  cases members.lookup (String.ofList cs) with
  | some a => exact incremental_ok a
  | none => exact incremental_error _

theorem incremental_closeVariant (a : α) : Incremental (closeVariant a) :=
  incremental_blanks rfl fun _ => incremental_expect _ a _

theorem incremental_variantObject : Incremental (variantObject members) := by
  apply incremental_blanks rfl
  intro c
  apply incremental_ite
  · exact fun _ => (incremental_variantName members).andThen fun a => incremental_colon.andThen fun _ =>
      incremental_null.andThen fun _ => incremental_closeVariant a
  · exact fun _ => incremental_error _

theorem incremental_variant : Incremental (Reader.variant members).run := by
  apply incremental_blanks rfl
  intro c
  apply incremental_ite
  · exact fun _ => incremental_variantName members
  · exact fun _ => incremental_ite (fun _ => incremental_variantObject members) fun _ => incremental_error _

end

end Preconditions.Json
