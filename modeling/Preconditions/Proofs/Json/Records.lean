import Preconditions.Json.Record
import Preconditions.Proofs.Json.Readers

/-!
# Records against the grammar

A layout says of each field of a format where its value stands in the draft and what it means. Then the reader
of the format takes the objects and the lists whose values fill a draft that can be finished.
-/

namespace Preconditions.Json

/-! ## What comes next in an object -/

theorem nextMember_cases {isFirst more : Bool} {s r : List Char} (h : nextMember isFirst s = .ok (more, r)) :
    (more = false ∧ ∃ b, Blank b ∧ s = b ++ '}' :: r) ∨ (more = true ∧ ∃ g, Gap isFirst g ∧ s = g ++ '"' :: r) := by
  unfold nextMember at h
  split at h
  · cases h
  rename_i c t hs
  obtain ⟨b, hb, rfl⟩ := split_of_skipBlanks hs
  split at h
  · rename_i hc
    cases h
    exact .inl ⟨rfl, b, hb, by rw [hc]⟩
  split at h
  · rename_i hf
    obtain rfl : isFirst = true := hf
    split at h
    · rename_i hc
      cases h
      exact .inr ⟨rfl, b, .first hb, by rw [hc]⟩
    · cases h
  rename_i hf
  obtain rfl : isFirst = false := Bool.eq_false_iff.2 hf
  split at h
  · rename_i hc
    split at h
    · cases h
    rename_i d u hu
    obtain ⟨b', hb', rfl⟩ := split_of_skipBlanks hu
    split at h
    · rename_i hd
      cases h
      exact .inr ⟨rfl, b ++ ',' :: b', .next hb hb', by simp [hc, hd]⟩
    · cases h
  · cases h

theorem nextMember_close (isFirst : Bool) {b : List Char} (hb : Blank b) (t : List Char) :
    nextMember isFirst (b ++ '}' :: t) = .ok (false, t) := by
  simp only [nextMember, skipBlanks_append_cons hb (c := '}') rfl, if_true]

theorem nextMember_key {isFirst : Bool} {g : List Char} (hg : Gap isFirst g) (t : List Char) :
    nextMember isFirst (g ++ '"' :: t) = .ok (true, t) := by
  cases hg with
  | first hb =>
    simp only [nextMember, skipBlanks_append_cons hb (c := '"') rfl]
    rfl
  | @next b b' hb hb' =>
    rw [List.append_assoc, List.cons_append]
    simp only [nextMember, skipBlanks_append_cons hb (c := ',') rfl, skipBlanks_append_cons hb' (c := '"') rfl]
    rfl

theorem KeySpelled.quoted {k : List Piece} {x : List Char} (h : KeySpelled k x) : ∃ y, x = '"' :: y := by
  cases h
  exact ⟨_, rfl⟩

theorem KeySpelled.split {k : List Piece} {y : List Char} (h : KeySpelled k ('"' :: y)) :
    ∃ x b b', TextSpelled k x ∧ Blank b ∧ Blank b' ∧ y = x ++ '"' :: b ++ ':' :: b' := by
  cases h with
  | mk hx hb hb' => exact ⟨_, _, _, hx, hb, hb', rfl⟩

/-! ## What comes next in a list -/

theorem gap_append {isFirst : Bool} {g b : List Char} (hg : Gap isFirst g) (hb : Blank b) :
    Gap isFirst (g ++ b) := by
  cases hg with
  | first h => exact .first (blank_append h hb)
  | @next c c' h h' =>
    rw [List.append_assoc, List.cons_append]
    exact .next h (blank_append h' hb)

theorem nextElement_cases {isFirst more : Bool} {s r : List Char} (h : nextElement isFirst s = .ok (more, r)) :
    (more = false ∧ ∃ b, Blank b ∧ s = b ++ ']' :: r) ∨ (more = true ∧ ∃ g, Gap isFirst g ∧ s = g ++ r) := by
  unfold nextElement at h
  split at h
  · cases h
  rename_i c t hs
  obtain ⟨b, hb, rfl⟩ := split_of_skipBlanks hs
  split at h
  · rename_i hc
    cases h
    exact .inl ⟨rfl, b, hb, by rw [hc]⟩
  split at h
  · rename_i hf
    obtain rfl : isFirst = true := hf
    cases h
    exact .inr ⟨rfl, b, .first hb, rfl⟩
  rename_i hf
  obtain rfl : isFirst = false := Bool.eq_false_iff.2 hf
  split at h
  · rename_i hc
    split at h
    · cases h
    rename_i d u hu
    obtain ⟨b', hb', rfl⟩ := split_of_skipBlanks hu
    split at h
    · cases h
    · cases h
      exact .inr ⟨rfl, b ++ ',' :: b', .next hb hb', by simp [hc]⟩
  · cases h

theorem nextElement_close (isFirst : Bool) {b : List Char} (hb : Blank b) (t : List Char) :
    nextElement isFirst (b ++ ']' :: t) = .ok (false, t) := by
  simp only [nextElement, skipBlanks_append_cons hb (c := ']') rfl, if_true]

theorem nextElement_value {isFirst : Bool} {v : Value} {g w : List Char} (hg : Gap isFirst g) (hv : Spells v w)
    (t : List Char) : nextElement isFirst (g ++ w ++ t) = .ok (true, w ++ t) := by
  obtain ⟨c, u, hw, hc⟩ := hv.head
  have hne : c ≠ ']' := by
    rintro rfl
    rw [opens_closing] at hc
    cases hc
  cases hg with
  | first hb =>
    have hs := hv.skipBlanks_eq hb t
    subst hw
    simp only [nextElement, hs, List.cons_append, if_neg hne, if_true]
  | @next b b' hb hb' =>
    have hs : skipBlanks (b ++ ',' :: b' ++ w ++ t) = ',' :: (b' ++ w ++ t) := by
      simp only [List.append_assoc, List.cons_append]
      exact skipBlanks_append_cons hb rfl _
    have hu := hv.skipBlanks_eq hb' t
    subst hw
    simp only [nextElement, hs, hu, List.cons_append, if_neg hne]
    rfl

theorem closeList_sound {s r : List Char} {u : Unit} (h : closeList s = .ok (u, r)) :
    ∃ b, Blank b ∧ s = b ++ ']' :: r := by
  unfold closeList at h
  split at h
  · cases h
  rename_i c t hs
  obtain ⟨b, hb, rfl⟩ := split_of_skipBlanks hs
  split at h
  · rename_i hc
    cases h
    exact ⟨b, hb, by rw [hc]⟩
  split at h <;> cases h

theorem closeList_complete {b : List Char} (hb : Blank b) (t : List Char) :
    closeList (b ++ ']' :: t) = .ok ((), t) := by
  simp only [closeList, skipBlanks_append_cons hb (c := ']') rfl, if_true]

/-! ## Layouts -/

/-- The fields of a record, each with its part of the draft and the meaning of its values. -/
structure Layout (σ ι : Type) (β : ι → Type) where
  order : List ι
  name : ι → String
  get : (i : ι) → σ → Option (β i)
  set : (i : ι) → σ → β i → σ
  reader : (i : ι) → Reader (β i)
  meaning : (i : ι) → Value → Option (β i)
  mem_order : ∀ i, i ∈ order
  nodup_order : order.Nodup
  name_inj : ∀ {i j}, name i = name j → i = j
  get_set : ∀ i d b, get i (set i d b) = some b
  get_set_of_ne : ∀ {i j}, j ≠ i → ∀ d b, get j (set i d b) = get j d
  ext : ∀ {d e}, (∀ i, get i d = get i e) → d = e
  reads : ∀ i, (reader i).Reads (meaning i)

namespace Layout
variable {σ ι α : Type} {β : ι → Type} (L : Layout σ ι β)

def field (i : ι) : Field σ := .of (L.name i) (L.get i) (L.set i) (L.reader i)

def take (d : σ) (m : List Piece × Value) : Option σ :=
  (decode? m.1).bind fun key =>
    match L.order.find? (L.name · == String.ofList key) with
    | some i => if (L.get i d).isSome then none else (L.meaning i m.2).map (L.set i d)
    | none => some d

def takeMembers (d : σ) (ms : List (List Piece × Value)) : Option σ := ms.foldlM L.take d

def takeElements : List ι → σ → List Value → Option σ
  | _, d, [] => some d
  | [], _, _ :: _ => none
  | i :: is, d, v :: vs => (L.meaning i v).bind fun b => takeElements is (L.set i d b) vs

def draft? (d : σ) : Value → Option σ
  | .object ms => L.takeMembers d ms
  | .list vs => L.takeElements L.order d vs
  | _ => none

def value? (f : RecordFormat σ α) (v : Value) : Option α := (L.draft? f.draft v).bind fun d => (f.finish d).toOption

variable {f : RecordFormat σ α}

theorem members_close {isFirst : Bool} {d : σ} {s r : List Char} {a : α}
    (h : nextMember isFirst s = .ok (false, r)) (ha : f.finish d = .ok a) : f.members isFirst d s = .ok (a, r) := by
  rw [RecordFormat.members]
  split <;> rename_i h' <;> rw [h] at h' <;> cases h'
  rw [ha]

theorem members_step {isFirst : Bool} {d d' : σ} {s r t : List Char} (h : nextMember isFirst s = .ok (true, r))
    (hm : f.member d r = .ok (d', t)) : f.members isFirst d s = f.members false d' t := by
  rw [RecordFormat.members]
  split <;> rename_i h' <;> rw [h] at h' <;> cases h'
  split <;> rename_i hm' <;> rw [hm] at hm' <;> cases hm'
  rfl

theorem field_complete {i : ι} {v : Value} {b : β i} {g w t : List Char} (hg : Blank g) (hv : Spells v w)
    (hb : L.meaning i v = some b) (ht : Stops t) :
    (L.field i).reader.run (g ++ w ++ t) = .ok (fun d => L.set i d b, t) := by
  show ((L.reader i).run (g ++ w ++ t)).andThen _ = _
  rw [(L.reads i).complete hg hv hb ht]
  rfl

variable (hf : f.fields = L.order.map L.field)
include hf

theorem field?_eq (key : List Char) :
    f.field? key = (L.order.find? (L.name · == String.ofList key)).map L.field := by
  rw [RecordFormat.field?, hf, List.find?_map]
  rfl

/-! ## Members -/

theorem member_sound {d d' : σ} {s t : List Char} (h : f.member d s = .ok (d', t)) :
    ∃ k y v w, KeySpelled k ('"' :: y) ∧ Spells v w ∧ s = y ++ w ++ t ∧ L.take d (k, v) = some d' := by
  obtain ⟨key, r, hr, hk⟩ := Reading.andThen_eq_ok.1 h
  obtain ⟨k, y, hy, rfl, hkey⟩ := textBody_sound hr
  simp only [L.field?_eq hf] at hk
  cases hi : L.order.find? (L.name · == String.ofList key) with
  | none =>
    simp only [hi, Option.map_none] at hk
    obtain ⟨_, t₁, ht₁, hk₂⟩ := Reading.andThen_eq_ok.1 hk
    obtain ⟨_, t₂, ht₂, hk₃⟩ := Reading.andThen_eq_ok.1 hk₂
    cases hk₃
    obtain ⟨b, hb, rfl⟩ := eq_of_colon ht₁
    obtain ⟨b', v, w, hb', hv, rfl⟩ := skipValue_sound ht₂
    exact ⟨k, _, v, w, .mk hy hb hb', hv, by simp, by simp [take, hkey, hi]⟩
  | some i =>
    simp only [hi, Option.map_some] at hk
    split at hk
    · cases hk
    rename_i hg
    obtain ⟨_, t₁, ht₁, hk₂⟩ := Reading.andThen_eq_ok.1 hk
    obtain ⟨_, t₂, ht₂, hk₃⟩ := Reading.andThen_eq_ok.1 hk₂
    cases hk₃
    obtain ⟨a, t₃, ht₃, hk₄⟩ := Reading.andThen_eq_ok.1 ht₂
    cases hk₄
    obtain ⟨b, hb, rfl⟩ := eq_of_colon ht₁
    obtain ⟨b', v, w, hb', hv, rfl, hm⟩ := (L.reads i).sound ht₃
    have hg' : (L.get i d).isSome = false := by simpa [field, Field.of] using hg
    exact ⟨k, _, v, w, .mk hy hb hb', hv, by simp, by simp [take, hkey, hi, hg', hm]⟩

theorem member_complete {d d' : σ} {k : List Piece} {v : Value} {y w t : List Char}
    (hk : KeySpelled k ('"' :: y)) (hv : Spells v w) (h : L.take d (k, v) = some d') (ht : Stops t) :
    f.member d (y ++ w ++ t) = .ok (d', t) := by
  obtain ⟨x, b, b', hx, hb, hb', rfl⟩ := hk.split
  obtain ⟨key, hkey, h'⟩ := Option.bind_eq_some_iff.1 h
  have hs : x ++ '"' :: b ++ ':' :: b' ++ w ++ t = x ++ '"' :: (b ++ ':' :: (b' ++ w ++ t)) := by simp
  have hbody := textBody_complete hx hkey (b ++ ':' :: (b' ++ w ++ t))
  rw [hs, RecordFormat.member, hbody]
  simp only [Reading.andThen, L.field?_eq hf, colon_complete hb]
  split at h'
  · rename_i i hi
    split at h'
    · cases h'
    rename_i hg
    obtain ⟨a, ha, rfl⟩ := Option.map_eq_some_iff.1 h'
    have hg' : (L.field i).isGiven d = false := Bool.eq_false_iff.2 hg
    simp only [hi, Option.map_some, hg', L.field_complete hb' hv ha ht]
    rfl
  · rename_i hi
    cases h'
    simp only [hi, Option.map_none, skipValue_complete hb' hv ht]

theorem members_sound {isFirst : Bool} {d : σ} {s t : List Char} {a : α}
    (h : f.members isFirst d s = .ok (a, t)) :
    ∃ ms w d', Members isFirst ms w ∧ s = w ++ '}' :: t ∧ L.takeMembers d ms = some d' ∧ f.finish d' = .ok a := by
  fun_induction RecordFormat.members f isFirst d s with
  | case1 => cases h
  | case2 isFirst d s r hn b hd =>
    cases h
    obtain ⟨-, w, hw, rfl⟩ | ⟨⟨⟩, -⟩ := nextMember_cases hn
    exact ⟨[], w, d, .nil hw, rfl, rfl, hd⟩
  | case3 => cases h
  | case4 => cases h
  | case5 isFirst d s r hn d₁ u hm ih =>
    obtain ⟨⟨⟩, -⟩ | ⟨-, g, hg, rfl⟩ := nextMember_cases hn
    obtain ⟨k, y, v, w, hk, hv, rfl, hd₁⟩ := L.member_sound hf hm
    obtain ⟨ms, x, d', hx, rfl, hd', ha⟩ := ih h
    refine ⟨(k, v) :: ms, _, d', .cons hg hk hv hx, by simp, ?_, ha⟩
    rw [takeMembers, List.foldlM_cons, hd₁]
    exact hd'

theorem members_append {isFirst : Bool} {ms : List (List Piece × Value)} {w : List Char} {d d' : σ}
    (hw : Members isFirst ms w) (hd : L.takeMembers d ms = some d') {s : List Char} (hs : ms ≠ [] → Stops s) :
    ∃ b, Blank b ∧ f.members isFirst d (w ++ s) = f.members (isFirst && ms.isEmpty) d' (b ++ s) := by
  induction ms generalizing isFirst w d with
  | nil =>
    rcases hw with hb | _
    cases hd
    exact ⟨w, hb, by rw [List.isEmpty_nil, Bool.and_true]⟩
  | cons m ms ih =>
    rcases hw with _ | ⟨hg, hk, hv, hx⟩
    rename_i k v g y w x
    rw [takeMembers, List.foldlM_cons] at hd
    obtain ⟨d₁, hd₁, hd₂⟩ := Option.bind_eq_some_iff.1 hd
    obtain ⟨y, rfl⟩ := hk.quoted
    have hstops := hs (List.cons_ne_nil _ _)
    have hassoc : g ++ '"' :: y ++ w ++ x ++ s = g ++ '"' :: (y ++ w ++ (x ++ s)) := by simp
    have hm := L.member_complete hf hk hv hd₁ (hx.stops_append hstops)
    obtain ⟨b, hb, h⟩ := ih hx hd₂ fun _ => hstops
    refine ⟨b, hb, ?_⟩
    rw [hassoc, members_step (nextMember_key hg _) hm, h, Bool.false_and, List.isEmpty_cons, Bool.and_false]

theorem members_complete {isFirst : Bool} {ms : List (List Piece × Value)} {w : List Char} {d d' : σ} {a : α}
    (hw : Members isFirst ms w) (hd : L.takeMembers d ms = some d') (ha : f.finish d' = .ok a)
    (t : List Char) : f.members isFirst d (w ++ '}' :: t) = .ok (a, t) := by
  obtain ⟨b, hb, h⟩ := L.members_append hf hw hd (s := '}' :: t) fun _ => stops_cons rfl (by decide)
  rw [h]
  exact members_close (nextMember_close _ hb t) ha

/-! ## Elements -/

omit hf in
theorem finishList_sound {n : Nat} {d : σ} {s t : List Char} {a : α} (h : f.finishList n d s = .ok (a, t)) :
    s = t ∧ f.finish d = .ok a := by
  unfold RecordFormat.finishList at h
  split at h
  · rename_i hd
    cases h
    exact ⟨rfl, hd⟩
  · cases h

omit hf in
theorem elements_sound {is : List ι} {n : Nat} {d : σ} {s t : List Char} {a : α}
    (h : f.elements (is.map L.field) n d s = .ok (a, t)) :
    ∃ vs w d', Elements (n == 0) vs w ∧ s = w ++ ']' :: t ∧ L.takeElements is d vs = some d' ∧
      f.finish d' = .ok a := by
  induction is generalizing n d s with
  | nil =>
    obtain ⟨_, r, hr, hk⟩ := Reading.andThen_eq_ok.1 h
    obtain ⟨w, hw, rfl⟩ := closeList_sound hr
    obtain ⟨rfl, ha⟩ := finishList_sound hk
    exact ⟨[], w, d, .nil hw, rfl, rfl, ha⟩
  | cons i is ih =>
    obtain ⟨more, r, hr, hk⟩ := Reading.andThen_eq_ok.1 h
    obtain ⟨rfl, w, hw, rfl⟩ | ⟨rfl, g, hg, rfl⟩ := nextElement_cases hr
    · obtain ⟨rfl, ha⟩ := finishList_sound hk
      exact ⟨[], w, d, .nil hw, rfl, rfl, ha⟩
    · obtain ⟨_, u, hu, hk₂⟩ := Reading.andThen_eq_ok.1 hk
      obtain ⟨b, u', hb, hk₃⟩ := Reading.andThen_eq_ok.1 hu
      cases hk₃
      obtain ⟨g', v, w, hg', hv, rfl, hm⟩ := (L.reads i).sound hb
      obtain ⟨vs, x, d', hx, rfl, hd', ha⟩ := ih hk₂
      refine ⟨v :: vs, _, d', .cons (gap_append hg hg') hv hx, by simp, ?_, ha⟩
      rw [takeElements, hm]
      exact hd'

omit hf in
theorem elements_complete {is : List ι} {n : Nat} {vs : List Value} {w : List Char} {d d' : σ} {a : α}
    (hw : Elements (n == 0) vs w) (hd : L.takeElements is d vs = some d') (ha : f.finish d' = .ok a)
    (t : List Char) : f.elements (is.map L.field) n d (w ++ ']' :: t) = .ok (a, t) := by
  induction is generalizing n vs w d with
  | nil =>
    cases vs with
    | nil =>
      rcases hw with hb | _
      cases hd
      simp only [List.map_nil, RecordFormat.elements, closeList_complete hb, Reading.andThen,
        RecordFormat.finishList, ha]
    | cons v vs => cases hd
  | cons i is ih =>
    cases vs with
    | nil =>
      rcases hw with hb | _
      cases hd
      simp only [List.map_cons, RecordFormat.elements, nextElement_close _ hb, Reading.andThen,
        RecordFormat.finishList, ha]
      rfl
    | cons v vs =>
      rcases hw with _ | ⟨hg, hv, hx⟩
      rename_i g w x
      rw [takeElements] at hd
      obtain ⟨b, hb, hd₁⟩ := Option.bind_eq_some_iff.1 hd
      have hs : g ++ w ++ x ++ ']' :: t = g ++ w ++ (x ++ ']' :: t) := by simp
      have hr := L.field_complete blank_nil hv hb (hx.stops t)
      rw [List.nil_append] at hr
      rw [hs, List.map_cons, RecordFormat.elements, nextElement_value hg hv]
      simp only [Reading.andThen, if_true, hr]
      exact ih hx hd₁

/-! ## Records -/

/-- **Reading a record.** The reader takes the objects and the lists that fill a draft which can be finished. -/
theorem reads_record : f.reader.Reads (L.value? f) := by
  constructor
  · intro s t a h
    simp only [RecordFormat.reader, RecordFormat.read] at h
    split at h
    · rename_i u hs
      obtain ⟨g, hg, rfl⟩ := split_of_skipBlanks hs
      obtain ⟨ms, w, d, hw, rfl, hd, ha⟩ := L.members_sound hf h
      exact ⟨g, _, _, hg, .object hw, by simp, by simp [value?, draft?, hd, ha, toOption_eq_some_iff]⟩
    · rename_i u hs
      obtain ⟨g, hg, rfl⟩ := split_of_skipBlanks hs
      rw [hf] at h
      obtain ⟨vs, w, d, hw, rfl, hd, ha⟩ := L.elements_sound h
      exact ⟨g, _, _, hg, .list hw, by simp, by simp [value?, draft?, hd, ha, toOption_eq_some_iff]⟩
    · obtain ⟨_, r, _, hk⟩ := Reading.andThen_eq_ok.1 h
      cases hk
  · intro g w t v a hg hv ha _
    have hs := hv.skipBlanks_eq hg t
    obtain ⟨d, hd, hfin⟩ := Option.bind_eq_some_iff.1 ha
    rw [toOption_eq_some_iff] at hfin
    simp only [RecordFormat.reader, RecordFormat.read, hs]
    cases hv with
    | object hw => simpa using L.members_complete hf hw hd hfin t
    | list hw => simpa [hf] using L.elements_complete (n := 0) hw hd hfin t
    | _ => cases hd

end Layout

end Preconditions.Json
