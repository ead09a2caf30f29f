import Preconditions.Proofs.Json.Skipping

/-!
# Readers against the grammar

`Reader.Reads r m` says that a reader takes exactly the values which `m` gives a meaning, and returns that
meaning. It holds of the readers of scalars, and it is kept where an enumeration or an option is built on them.
-/

namespace Preconditions.Json

/-- The reader takes the spelling of a value with a meaning, and nothing else. -/
structure Reader.Reads {α : Type} (r : Reader α) (m : Value → Option α) : Prop where
  sound : ∀ {s t : List Char} {a : α}, r.run s = .ok (a, t) →
    ∃ g v w, Blank g ∧ Spells v w ∧ s = g ++ w ++ t ∧ m v = some a
  complete : ∀ {g w t : List Char} {v : Value} {a : α}, Blank g → Spells v w → m v = some a → Stops t →
    r.run (g ++ w ++ t) = .ok (a, t)

/-! ## Documents -/

section
variable {α : Type} {r : Reader α} {m : Value → Option α}

theorem Reader.Reads.document_eq_ok_iff (h : r.Reads m) {s : List Char} {a : α} :
    r.document s = .ok a ↔ ∃ v, Document v s ∧ m v = some a := by
  constructor
  · intro hs
    unfold Reader.document at hs
    split at hs
    · rename_i b t hr
      unfold finishDocument at hs
      split at hs
      · rename_i ht
        cases hs
        obtain ⟨g, v, w, hg, hv, rfl, hm⟩ := h.sound hr
        exact ⟨v, .mk hg hv (blank_of_skipBlanks ht), hm⟩
      · cases hs
    · cases hs
  · intro hx
    obtain ⟨v, ⟨hg, hv, hb⟩, hm⟩ := hx
    have hr := h.complete hg hv hm (by simpa using stops_append hb stops_nil)
    simp only [Reader.document, hr, finishDocument, skipBlanks_blank hb]

theorem Reader.Reads.decode_eq_ok_iff (h : r.Reads m) {text : String} {a : α} :
    r.decode text = .ok a ↔ ∃ v, Document v text.toList ∧ m v = some a := by
  rw [← h.document_eq_ok_iff, Reader.decode]
  split
  · rename_i b hb
    simp [hb]
  · rename_i f hf
    simp [hf]

end

theorem exists_error_iff {ε α : Type} {x : Except ε α} : (∃ e, x = .error e) ↔ ¬ ∃ a, x = .ok a := by
  cases x <;> simp

/-! ## Words -/

theorem eq_of_word_andThen {α : Type} {a b : α} {w s t : List Char}
    (h : (word w s).andThen (fun _ r => .ok (a, r)) = .ok (b, t)) : a = b ∧ s = w ++ t := by
  obtain ⟨_, r, hr, hk⟩ := Reading.andThen_eq_ok.1 h
  cases hk
  exact ⟨rfl, eq_append_of_word hr⟩

theorem word_andThen {α : Type} (a : α) (w t : List Char) :
    (word w (w ++ t)).andThen (fun _ r => .ok (a, r)) = .ok (a, t) := by
  rw [word_append]
  rfl

/-! ## Tokens -/

def Value.token? : Value → Option Token
  | null => some .null
  | boolean b => some (.boolean b)
  | number l => l.reading?.map .number
  | text ps => (decode? ps).map fun cs => .text (String.ofList cs)
  | list _ => none
  | object _ => none

theorem readToken_sound {s t : List Char} {k : Token} (h : readToken s = .ok (k, t)) :
    (k = .list ∨ k = .object) ∨ ∃ g v w, Blank g ∧ Spells v w ∧ s = g ++ w ++ t ∧ v.token? = some k := by
  unfold readToken at h
  split at h
  · cases h
  rename_i c u hs
  obtain ⟨g, hg, rfl⟩ := split_of_skipBlanks hs
  split at h
  · rename_i hc
    obtain ⟨cs, r, hr, hk⟩ := Reading.andThen_eq_ok.1 h
    cases hk
    obtain ⟨ps, w, hw, rfl, hps⟩ := textBody_sound hr
    exact .inr ⟨g, _, _, hg, .text hw, by simp [hc], by simp [Value.token?, hps]⟩
  split at h
  · obtain ⟨n, r, hr, hk⟩ := Reading.andThen_eq_ok.1 h
    cases hk
    obtain ⟨l, w, hw, hs', hl⟩ := readNumber_sound hr
    exact .inr ⟨g, _, w, hg, .number hw, by simp [hs'], by simp [Value.token?, hl]⟩
  split at h
  · rename_i hc
    obtain ⟨rfl, rfl⟩ := eq_of_word_andThen h
    exact .inr ⟨g, _, _, hg, .nullWord, by simp [hc, nullTail], rfl⟩
  split at h
  · rename_i hc
    obtain ⟨rfl, rfl⟩ := eq_of_word_andThen h
    exact .inr ⟨g, _, _, hg, .trueWord, by simp [hc, trueTail], rfl⟩
  split at h
  · rename_i hc
    obtain ⟨rfl, rfl⟩ := eq_of_word_andThen h
    exact .inr ⟨g, _, _, hg, .falseWord, by simp [hc, falseTail], rfl⟩
  split at h
  · cases h; exact .inl (.inl rfl)
  split at h
  · cases h; exact .inl (.inr rfl)
  · cases h

theorem readToken_complete {g w t : List Char} {v : Value} {k : Token} (hg : Blank g) (hv : Spells v w)
    (hk : v.token? = some k) (ht : Stops t) : readToken (g ++ w ++ t) = .ok (k, t) := by
  rw [readToken, hv.skipBlanks_eq hg]
  cases hv with
  | nullWord =>
    cases hk
    exact word_andThen _ nullTail t
  | trueWord =>
    cases hk
    exact word_andThen _ trueTail t
  | falseWord =>
    cases hk
    exact word_andThen _ falseTail t
  | @number l w hl =>
    obtain ⟨n, hn, rfl⟩ := Option.map_eq_some_iff.1 hk
    have hr := readNumber_complete hl hn ht
    obtain ⟨c, u, rfl, hc⟩ := hl.head
    have hq : c ≠ '"' := by rintro rfl; cases hc
    rw [List.cons_append] at hr ⊢
    simp only [if_neg hq, if_pos hc, hr, Reading.andThen]
  | text hw =>
    obtain ⟨cs, hcs, rfl⟩ := Option.map_eq_some_iff.1 hk
    have hr := textBody_complete hw hcs t
    simp only [List.cons_append, List.append_assoc, List.nil_append, if_true, hr, Reading.andThen]
  | list _ => cases hk
  | object _ => cases hk

/-! ## Scalars -/

theorem toOption_eq_some_iff {ε α : Type} {x : Except ε α} {a : α} : x.toOption = some a ↔ x = .ok a := by
  cases x <;> simp [Except.toOption]

theorem reads_refine {α : Type} {f : Token → Except Cause α} {m : Value → Option α}
    (hl : ∀ a, f .list ≠ .ok a) (ho : ∀ a, f .object ≠ .ok a)
    (hm : ∀ v, m v = v.token?.bind fun k => (f k).toOption) : (Reader.token.refine f).Reads m := by
  have hiff : ∀ v a, m v = some a ↔ ∃ k, v.token? = some k ∧ f k = .ok a := by
    intro v a
    simp only [hm, Option.bind_eq_some_iff, toOption_eq_some_iff]
  constructor
  · intro s t a h
    obtain ⟨k, t', hk, h'⟩ := Reading.andThen_eq_ok.1 h
    split at h'
    · rename_i b hf
      cases h'
      rcases readToken_sound hk with (rfl | rfl) | ⟨g, v, w, hg, hv, hs, hv'⟩
      · exact absurd hf (hl _)
      · exact absurd hf (ho _)
      · exact ⟨g, v, w, hg, hv, hs, (hiff v _).2 ⟨k, hv', hf⟩⟩
    · cases h'
  · intro g w t v a hg hv ha ht
    obtain ⟨k, hk, hf⟩ := (hiff v a).1 ha
    show (readToken (g ++ w ++ t)).andThen _ = _
    rw [readToken_complete hg hv hk ht]
    simp only [Reading.andThen, hf]

namespace Value

def text? : Value → Option String
  | text ps => (decode? ps).map String.ofList
  | _ => none

def boolean? : Value → Option Bool
  | boolean b => some b
  | _ => none

def null? : Value → Option Unit
  | null => some ()
  | _ => none

def word16? (v : Value) : Option UInt16 :=
  v.natural?.bind fun n => if n < UInt16.size then some (.ofNat n) else none

def word64? (v : Value) : Option UInt64 :=
  v.natural?.bind fun n => if n < UInt64.size then some (.ofNat n) else none

def optional? {α : Type} (m : Value → Option α) : Value → Option (Option α)
  | null => some none
  | v => (m v).map some

end Value

theorem bind_map_eq_none {α β γ : Type} {g : α → β} {f : β → Option γ} (h : ∀ a, f (g a) = none) (o : Option α) :
    (o.map g).bind f = none := by
  cases o with
  | none => rfl
  | some a => exact h a

theorem text_reads : Reader.text.Reads Value.text? := by
  refine reads_refine (fun _ h => nomatch h) (fun _ h => nomatch h) fun v => ?_
  cases v with
  | text ps => cases h : decode? ps <;> simp [Value.text?, Value.token?, Except.toOption, h]
  | number l => exact (bind_map_eq_none (fun _ => rfl) _).symm
  | _ => rfl

theorem boolean_reads : Reader.boolean.Reads Value.boolean? := by
  refine reads_refine (fun _ h => nomatch h) (fun _ h => nomatch h) fun v => ?_
  cases v with
  | number l => exact (bind_map_eq_none (fun _ => rfl) _).symm
  | text ps => exact (bind_map_eq_none (fun _ => rfl) _).symm
  | _ => rfl

theorem null_reads : Reader.null.Reads Value.null? := by
  refine reads_refine (fun _ h => nomatch h) (fun _ h => nomatch h) fun v => ?_
  cases v with
  | number l => exact (bind_map_eq_none (fun _ => rfl) _).symm
  | text ps => exact (bind_map_eq_none (fun _ => rfl) _).symm
  | _ => rfl

theorem integer?_of_reading? {l : Literal} {n : Int} (h : l.reading? = some (.integer n)) :
    l.integer? = some n := by
  unfold Literal.reading? at h
  split at h
  · split at h <;> cases h
  · unfold Literal.number? at h
    split at h
    · rename_i k hk
      cases h
      exact hk
    · cases hd : l.double? <;> simp [hd] at h

theorem natural?_of_reading? {l : Literal} {n : Int} (h : l.reading? = some (.integer n)) (hn : 0 ≤ n) :
    (Value.number l).natural? = some n.toNat := by
  obtain ⟨negative, whole, fraction, exponent⟩ := l
  have hi := integer?_of_reading? h
  unfold Literal.integer? at hi
  split at hi
  · rename_i hf
    obtain ⟨rfl, rfl⟩ := hf
    cases negative with
    | true =>
      simp only [if_true] at hi
      split at hi
      · rename_i hw
        cases hi
        omega
      · cases hi
    | false =>
      simp only [Bool.false_eq_true, if_false] at hi
      split at hi
      · cases hi
        rw [Value.natural?, Int.toNat_natCast]
      · cases hi
  · cases hi

theorem reading?_of_natural? {l : Literal} {n : Nat} (h : (Value.number l).natural? = some n)
    (hn : n < UInt64.size) : l.reading? = some (.integer n) := by
  unfold Value.natural? at h
  split at h
  · rename_i whole hv
    cases hv
    cases h
    have hi : Literal.integer? ⟨false, whole, [], none⟩ = some (Nat.ofDigitChars 10 whole 0 : Int) := by
      rw [Literal.integer?, if_pos ⟨rfl, rfl⟩, if_neg Bool.false_ne_true]
      exact if_pos hn
    simp only [Literal.reading?, Literal.excess, Option.bind_none, Literal.number?, hi]
  · cases h

theorem word_reads {α : Type} {size : Nat} {ofNat : Nat → α} {f : Token → Except Cause α} (hsize : size ≤ UInt64.size)
    (hinteger : ∀ n : Int, (f (.number (.integer n))).toOption =
      if 0 ≤ n ∧ n < size then some (ofNat n.toNat) else none)
    (hother : ∀ k, (∀ n, k ≠ .number (.integer n)) → (f k).toOption = none) :
    (Reader.token.refine f).Reads fun v => v.natural?.bind fun n => if n < size then some (ofNat n) else none := by
  have hne : ∀ {k a}, (∀ n, k ≠ .number (.integer n)) → f k ≠ .ok a := by
    intro k a hk h
    rw [← toOption_eq_some_iff, hother k hk] at h
    cases h
  refine reads_refine (fun _ => hne (by simp)) (fun _ => hne (by simp)) fun v => ?_
  cases v with
  | number l =>
    apply Option.ext
    intro a
    rw [Value.token?, Option.bind_map, Option.bind_eq_some_iff, Option.bind_eq_some_iff]
    simp only [Function.comp_def]
    constructor
    · intro hx
      obtain ⟨n, hn, ha⟩ := hx
      split at ha
      · rename_i hlt
        refine ⟨_, reading?_of_natural? hn (Nat.lt_of_lt_of_le hlt hsize), ?_⟩
        rw [hinteger, if_pos (by omega)]
        exact ha
      · cases ha
    · intro hx
      obtain ⟨k, hk, ha⟩ := hx
      cases k with
      | integer n =>
        rw [hinteger] at ha
        split at ha
        · rename_i hn
          refine ⟨n.toNat, natural?_of_reading? hk hn.1, ?_⟩
          rw [if_pos (by omega)]
          exact ha
        · cases ha
      | double x =>
        rw [hother _ (by simp)] at ha
        cases ha
  | text ps => exact (bind_map_eq_none (f := fun k => (f k).toOption) (fun _ => hother _ (by simp)) _).symm
  | null => exact (hother _ (by simp)).symm
  | boolean b => exact (hother _ (by simp)).symm
  | _ => rfl

theorem word16_reads : Reader.word16.Reads Value.word16? := by
  refine word_reads (by decide) (fun n => ?_) fun k hk => ?_
  · dsimp only
    split <;> rfl
  · split
    · exact absurd rfl (hk _)
    · rfl

theorem word64_reads : Reader.word64.Reads Value.word64? := by
  refine word_reads (Nat.le_refl _) (fun n => ?_) fun k hk => ?_
  · dsimp only
    split <;> rfl
  · split
    · exact absurd rfl (hk _)
    · rfl

theorem Reader.Reads.map {α β : Type} {r : Reader α} {m : Value → Option α} (h : r.Reads m) (f : α → β) :
    (r.map f).Reads fun v => (m v).map f := by
  constructor
  · intro s t b hr
    obtain ⟨a, u, hu, hk⟩ := Reading.andThen_eq_ok.1 hr
    cases hk
    obtain ⟨g, v, w, hg, hv, hs, hm⟩ := h.sound hu
    exact ⟨g, v, w, hg, hv, hs, by rw [hm]; rfl⟩
  · intro g w t v b hg hv hb ht
    obtain ⟨a, ha, rfl⟩ := Option.map_eq_some_iff.1 hb
    show (r.run (g ++ w ++ t)).andThen _ = _
    rw [h.complete hg hv ha ht]
    rfl

theorem optional?_of_ne_null {α : Type} {m : Value → Option α} {v : Value} (h : v ≠ .null) :
    v.optional? m = (m v).map some := by
  cases v with
  | null => exact absurd rfl h
  | _ => rfl

theorem eq_null_of_opens {v : Value} (h : v.opens 'n' = true) : v = .null := by
  cases v with
  | null => rfl
  | boolean b => cases b <;> cases h
  | _ => cases h

theorem optional_reads {α : Type} {r : Reader α} {m : Value → Option α} (h : r.Reads m) :
    r.optional.Reads (Value.optional? m) := by
  constructor
  · intro s t a hr
    simp only [Reader.optional] at hr
    split at hr
    · rename_i u hs
      obtain ⟨g, hg, rfl⟩ := split_of_skipBlanks hs
      obtain ⟨rfl, rfl⟩ := eq_of_word_andThen hr
      exact ⟨g, _, _, hg, .nullWord, by simp [nullTail], rfl⟩
    · rename_i hs
      obtain ⟨b, t', ht, hk⟩ := Reading.andThen_eq_ok.1 hr
      cases hk
      obtain ⟨g, v, w, hg, hv, rfl, hm⟩ := h.sound ht
      refine ⟨g, v, w, hg, hv, rfl, ?_⟩
      have hn : v ≠ .null := by
        rintro rfl
        cases hv
        exact hs _ (Spells.nullWord.skipBlanks_eq hg t)
      rw [optional?_of_ne_null hn, hm]
      rfl
  · intro g w t v a hg hv ha ht
    have hs := hv.skipBlanks_eq hg t
    by_cases hn : v = .null
    · subst hn
      cases ha
      cases hv
      simp only [Reader.optional, hs]
      exact word_andThen none nullTail t
    · rw [optional?_of_ne_null hn] at ha
      obtain ⟨b, hb, rfl⟩ := Option.map_eq_some_iff.1 ha
      have hr := h.complete hg hv hb ht
      obtain ⟨c, u, rfl, hc⟩ := hv.head
      simp only [Reader.optional, hs]
      split
      · rename_i hn'
        cases hn'
        exact absurd (eq_null_of_opens hc) hn
      · rw [hr]
        rfl

/-! ## Enumerations -/

def Value.variant? {α : Type} (members : List (String × α)) : Value → Option α
  | text ps => (decode? ps).bind fun cs => members.lookup (String.ofList cs)
  | object [(k, null)] => (decode? k).bind fun cs => members.lookup (String.ofList cs)
  | _ => none

section
variable {α : Type} {members : List (String × α)}

theorem variantName_sound {s t : List Char} {a : α} (h : variantName members s = .ok (a, t)) :
    ∃ ps w, TextSpelled ps w ∧ s = w ++ '"' :: t ∧
      ((decode? ps).bind fun cs => members.lookup (String.ofList cs)) = some a := by
  obtain ⟨cs, r, hr, hk⟩ := Reading.andThen_eq_ok.1 h
  obtain ⟨ps, w, hw, rfl, hps⟩ := textBody_sound hr
  split at hk
  · rename_i b hb
    cases hk
    exact ⟨ps, w, hw, rfl, by rw [hps]; exact hb⟩
  · cases hk

theorem variantName_complete {ps : List Piece} {w : List Char} {a : α} (hw : TextSpelled ps w)
    (h : ((decode? ps).bind fun cs => members.lookup (String.ofList cs)) = some a) (t : List Char) :
    variantName members (w ++ '"' :: t) = .ok (a, t) := by
  obtain ⟨cs, hcs, hl⟩ := Option.bind_eq_some_iff.1 h
  simp only [variantName, textBody_complete hw hcs, Reading.andThen, hl]

theorem variantObject_sound {s t : List Char} {a : α} (h : variantObject members s = .ok (a, t)) :
    ∃ k w, Members true [(k, .null)] w ∧ s = w ++ '}' :: t ∧
      ((decode? k).bind fun cs => members.lookup (String.ofList cs)) = some a := by
  unfold variantObject at h
  split at h
  · cases h
  rename_i c u hs
  obtain ⟨g, hg, rfl⟩ := split_of_skipBlanks hs
  split at h
  · rename_i hc
    obtain ⟨b, r, hr, hk⟩ := Reading.andThen_eq_ok.1 h
    obtain ⟨k, w, hw, rfl, hl⟩ := variantName_sound hr
    obtain ⟨_, r', hr', hk₂⟩ := Reading.andThen_eq_ok.1 hk
    obtain ⟨g₂, hg₂, rfl⟩ := eq_of_colon hr'
    obtain ⟨_, r'', hr'', hk₃⟩ := Reading.andThen_eq_ok.1 hk₂
    obtain ⟨g₃, v, x, hg₃, hv, rfl, hm⟩ := null_reads.sound hr''
    unfold closeVariant at hk₃
    split at hk₃
    · cases hk₃
    rename_i d u' hs'
    obtain ⟨g₄, hg₄, rfl⟩ := split_of_skipBlanks hs'
    split at hk₃
    · rename_i hd
      cases hk₃
      cases v with
      | null =>
        refine ⟨k, _, .cons (.first hg) (.mk hw hg₂ hg₃) hv (.nil hg₄), ?_, hl⟩
        simp [hc, hd]
      | _ => cases hm
    · cases hk₃
  · cases h

theorem variantObject_complete {k : List Piece} {w : List Char} {a : α} (hw : Members true [(k, .null)] w)
    (h : ((decode? k).bind fun cs => members.lookup (String.ofList cs)) = some a) (t : List Char) :
    variantObject members (w ++ '}' :: t) = .ok (a, t) := by
  rcases hw with _ | ⟨⟨hg⟩, hx, hv, hu⟩
  rename_i g x v u
  rcases hx with ⟨hy, hb, hb'⟩
  rename_i y b b'
  have hs : skipBlanks (g ++ ('"' :: y ++ '"' :: b ++ ':' :: b') ++ v ++ u ++ '}' :: t) =
      '"' :: (y ++ '"' :: (b ++ ':' :: (b' ++ v ++ (u ++ '}' :: t)))) := by
    simp only [List.append_assoc, List.cons_append]
    exact skipBlanks_append_cons hg rfl _
  have hn := null_reads.complete hb' hv rfl (hu.stops t)
  rcases hu with hu | _
  have hd : skipBlanks (u ++ '}' :: t) = '}' :: t := skipBlanks_append_cons hu rfl t
  simp only [variantObject, hs, if_true, variantName_complete hy h, Reading.andThen, colon_complete hb, hn,
    closeVariant, hd]

theorem variant_reads : (Reader.variant members).Reads (Value.variant? members) := by
  constructor
  · intro s t a h
    simp only [Reader.variant, readVariant] at h
    split at h
    · cases h
    rename_i c u hs
    obtain ⟨g, hg, rfl⟩ := split_of_skipBlanks hs
    split at h
    · rename_i hc
      obtain ⟨ps, w, hw, rfl, hl⟩ := variantName_sound h
      exact ⟨g, _, _, hg, .text hw, by simp [hc], hl⟩
    split at h
    · rename_i hc
      obtain ⟨k, w, hw, rfl, hl⟩ := variantObject_sound h
      exact ⟨g, _, _, hg, .object hw, by simp [hc], hl⟩
    · cases h
  · intro g w t v a hg hv ha _
    have hs := hv.skipBlanks_eq hg t
    simp only [Reader.variant, readVariant, hs]
    unfold Value.variant? at ha
    split at ha
    · rcases hv with _ | _ | _ | _ | hw
      simp only [List.cons_append, List.append_assoc, List.nil_append, if_true, variantName_complete hw ha]
    · rcases hv with _ | _ | _ | _ | _ | _ | hw
      simp only [List.cons_append, List.append_assoc, List.nil_append, if_true, variantObject_complete hw ha]
      rfl
    · cases ha

end

end Preconditions.Json
