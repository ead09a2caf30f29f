import Preconditions.Text.Utf8

/-!
# Well-formed UTF-8

The first byte of a character says how many bytes continue it, and together they make up its number. A text is
well-formed when each of its characters is written in as few bytes as its number takes. Bytes that are no text have a
first fault: a byte out of place, a character cut short, or the number of no character.
-/

namespace Preconditions.Text

def continues (b : UInt8) : Bool := 0x80 ≤ b.toNat && b.toNat < 0xC0

theorem continues_iff {b : UInt8} : continues b = true ↔ 0x80 ≤ b.toNat ∧ b.toNat < 0xC0 := by
  simp [continues]

def following (a : UInt8) : Nat :=
  if a.toNat < 0xC0 then 0 else if a.toNat < 0xE0 then 1 else if a.toNat < 0xF0 then 2 else 3

/-- A first byte with those that continue it, and the number that they make up. -/
inductive Framed : List UInt8 → Nat → Prop where
  | one {a : UInt8} {n : Nat} : a.toNat < 0x80 → n = a.toNat → Framed [a] n
  | two {a b : UInt8} {n : Nat} : 0xC0 ≤ a.toNat → a.toNat < 0xE0 → continues b →
      n = (a.toNat - 0xC0) * 0x40 + (b.toNat - 0x80) → Framed [a, b] n
  | three {a b c : UInt8} {n : Nat} : 0xE0 ≤ a.toNat → a.toNat < 0xF0 → continues b → continues c →
      n = (a.toNat - 0xE0) * 0x1000 + (b.toNat - 0x80) * 0x40 + (c.toNat - 0x80) → Framed [a, b, c] n
  | four {a b c d : UInt8} {n : Nat} : 0xF0 ≤ a.toNat → a.toNat < 0xF8 → continues b → continues c → continues d →
      n = (a.toNat - 0xF0) * 0x40000 + (b.toNat - 0x80) * 0x1000 + (c.toNat - 0x80) * 0x40 + (d.toNat - 0x80) →
      Framed [a, b, c, d] n

def least : Nat → Nat
  | 2 => 0x80
  | 3 => 0x800
  | 4 => 0x10000
  | _ => 0

inductive WellFormed : List UInt8 → List Char → Prop where
  | nil : WellFormed [] []
  | cons {bs rest : List UInt8} {c : Char} {cs : List Char} : Framed bs c.toNat → least bs.length ≤ c.toNat →
      WellFormed rest cs → WellFormed (bs ++ rest) (c :: cs)

/-- What stands where a character should begin, and is none: a byte that continues nothing, one that begins nothing,
a character with too few bytes after its first, one with more bytes than it takes, or the number of half of a
surrogate pair or of nothing at all. -/
inductive Fault : List UInt8 → Prop where
  | stray {a : UInt8} {rest : List UInt8} : continues a → Fault (a :: rest)
  | foreign {a : UInt8} {rest : List UInt8} : 0xF8 ≤ a.toNat → Fault (a :: rest)
  | truncated {a : UInt8} {rest : List UInt8} : 0xC0 ≤ a.toNat → a.toNat < 0xF8 →
      (rest.takeWhile continues).length < following a → Fault (a :: rest)
  | overlong {bs rest : List UInt8} {n : Nat} : Framed bs n → n < least bs.length → Fault (bs ++ rest)
  | surrogate {bs rest : List UInt8} {n : Nat} : Framed bs n → 0xD800 ≤ n → n ≤ 0xDFFF → Fault (bs ++ rest)
  | beyond {bs rest : List UInt8} {n : Nat} : Framed bs n → 0x10FFFF < n → Fault (bs ++ rest)

def Faulty (bs : List UInt8) : Prop := ∃ pre rest cs, bs = pre ++ rest ∧ WellFormed pre cs ∧ Fault rest

/-! ## Characters -/

theorem encodeChar_of_toNat (c : Char) : String.utf8EncodeChar c =
    if c.toNat ≤ 0x7F then [.ofNat c.toNat]
    else if c.toNat ≤ 0x7FF then [.ofNat (c.toNat / 64 % 0x20 + 0xC0), .ofNat (c.toNat % 0x40 + 0x80)]
    else if c.toNat ≤ 0xFFFF then
      [.ofNat (c.toNat / 4096 % 0x10 + 0xE0), .ofNat (c.toNat / 64 % 0x40 + 0x80), .ofNat (c.toNat % 0x40 + 0x80)]
    else
      [.ofNat (c.toNat / 262144 % 0x08 + 0xF0), .ofNat (c.toNat / 4096 % 0x40 + 0x80),
        .ofNat (c.toNat / 64 % 0x40 + 0x80), .ofNat (c.toNat % 0x40 + 0x80)] := rfl

theorem toNat_ofNat_lt {n : Nat} (h : n < 256) : (UInt8.ofNat n).toNat = n := by
  rw [UInt8.toNat_ofNat', Nat.mod_eq_of_lt h]

theorem ofNat_eq {a : UInt8} {n : Nat} (h : n = a.toNat) : UInt8.ofNat n = a := by
  rw [h, UInt8.ofNat_toNat]

theorem continues_ofNat {n : Nat} (h : n < 0x40) : continues (.ofNat (n + 0x80)) = true := by
  rw [continues_iff, toNat_ofNat_lt (by omega)]
  omega

theorem toNat_bounds (c : Char) : c.toNat < 0xD800 ∨ 0xDFFF < c.toNat ∧ c.toNat < 0x110000 := c.valid

theorem framed_encodeChar (c : Char) : Framed (String.utf8EncodeChar c) c.toNat := by
  have hc := toNat_bounds c
  rw [encodeChar_of_toNat]
  split
  · exact .one (by rw [toNat_ofNat_lt] <;> omega) (by rw [toNat_ofNat_lt]; omega)
  split
  · refine .two ?_ ?_ (continues_ofNat (by omega)) ?_
    all_goals simp (disch := omega) only [toNat_ofNat_lt]
    all_goals omega
  split
  · refine .three ?_ ?_ (continues_ofNat (by omega)) (continues_ofNat (by omega)) ?_
    all_goals simp (disch := omega) only [toNat_ofNat_lt]
    all_goals omega
  · refine .four ?_ ?_ (continues_ofNat (by omega)) (continues_ofNat (by omega)) (continues_ofNat (by omega)) ?_
    all_goals simp (disch := omega) only [toNat_ofNat_lt]
    all_goals omega

theorem least_encodeChar (c : Char) : least (String.utf8EncodeChar c).length ≤ c.toNat := by
  rw [encodeChar_of_toNat]
  split
  · exact Nat.zero_le _
  split
  · show 0x80 ≤ c.toNat
    omega
  split
  · show 0x800 ≤ c.toNat
    omega
  · show 0x10000 ≤ c.toNat
    omega

theorem Framed.eq_encodeChar {bs : List UInt8} {c : Char} (h : Framed bs c.toNat) (hl : least bs.length ≤ c.toNat) :
    bs = String.utf8EncodeChar c := by
  have hc := toNat_bounds c
  rw [encodeChar_of_toNat]
  generalize c.toNat = n at *
  cases h with
  | @one a _ ha hn =>
    rw [if_pos (by omega), ofNat_eq hn]
  | @two a b _ ha ha' hb hn =>
    have hb' := continues_iff.1 hb
    have hl : 0x80 ≤ n := hl
    rw [if_neg (by omega), if_pos (by omega), @ofNat_eq a _ (by omega), @ofNat_eq b _ (by omega)]
  | @three a b c _ ha ha' hb hc hn =>
    have hb' := continues_iff.1 hb
    have hc' := continues_iff.1 hc
    have hl : 0x800 ≤ n := hl
    rw [if_neg (by omega), if_neg (by omega), if_pos (by omega), @ofNat_eq a _ (by omega), @ofNat_eq b _ (by omega),
      @ofNat_eq c _ (by omega)]
  | @four a b c d _ ha ha' hb hc hd hn =>
    have hb' := continues_iff.1 hb
    have hc' := continues_iff.1 hc
    have hd' := continues_iff.1 hd
    have hl : 0x10000 ≤ n := hl
    rw [if_neg (by omega), if_neg (by omega), if_neg (by omega), @ofNat_eq a _ (by omega), @ofNat_eq b _ (by omega),
      @ofNat_eq c _ (by omega), @ofNat_eq d _ (by omega)]

/-! ## Texts -/

theorem wellFormed_utf8 (cs : List Char) : WellFormed (utf8 cs) cs := by
  induction cs with
  | nil => exact .nil
  | cons c cs ih => exact .cons (framed_encodeChar c) (least_encodeChar c) ih

theorem wellFormed_iff {bs : List UInt8} {cs : List Char} : WellFormed bs cs ↔ bs = utf8 cs := by
  constructor
  · intro h
    induction h with
    | nil => rfl
    | cons hf hl _ ih => rw [hf.eq_encodeChar hl, ih, utf8, utf8, List.flatMap_cons]
  · rintro rfl
    exact wellFormed_utf8 cs

/-! ## Frames -/

theorem Framed.eq_cons {bs : List UInt8} {n : Nat} (h : Framed bs n) : ∃ a tail, bs = a :: tail ∧
    continues a = false ∧ a.toNat < 0xF8 ∧ tail.length = following a ∧ ∀ b ∈ tail, continues b = true := by
  have hfirst : ∀ {a : UInt8}, a.toNat < 0x80 ∨ 0xC0 ≤ a.toNat → continues a = false := by
    intro a ha
    rw [Bool.eq_false_iff]
    intro hx
    have := continues_iff.1 hx
    omega
  cases h with
  | @one a _ ha hn =>
    exact ⟨a, [], rfl, hfirst (by omega), by omega, by rw [following, if_pos (by omega)]; rfl, by simp⟩
  | @two a b _ ha ha' hb hn =>
    exact ⟨a, [b], rfl, hfirst (by omega), by omega,
      by rw [following, if_neg (by omega), if_pos (by omega)]; rfl, by simp [hb]⟩
  | @three a b c _ ha ha' hb hc hn =>
    exact ⟨a, [b, c], rfl, hfirst (by omega), by omega,
      by rw [following, if_neg (by omega), if_neg (by omega), if_pos (by omega)]; rfl, by simp [hb, hc]⟩
  | @four a b c d _ ha ha' hb hc hd hn =>
    exact ⟨a, [b, c, d], rfl, hfirst (by omega), ha',
      by rw [following, if_neg (by omega), if_neg (by omega), if_neg (by omega)]; rfl, by simp [hb, hc, hd]⟩

theorem exists_framed {a : UInt8} {tail : List UInt8} (ha : continues a = false) (ha' : a.toNat < 0xF8)
    (hl : tail.length = following a) (ht : ∀ b ∈ tail, continues b = true) : ∃ n, Framed (a :: tail) n := by
  have hc : ¬ (0x80 ≤ a.toNat ∧ a.toNat < 0xC0) := fun h => Bool.eq_false_iff.1 ha (continues_iff.2 h)
  unfold following at hl
  split at hl
  · match tail, hl with
    | [], _ => exact ⟨_, .one (by omega) rfl⟩
  split at hl
  · match tail, hl with
    | [b], _ => exact ⟨_, .two (by omega) (by omega) (ht b (by simp)) rfl⟩
  split at hl
  · match tail, hl with
    | [b, c], _ => exact ⟨_, .three (by omega) (by omega) (ht b (by simp)) (ht c (by simp)) rfl⟩
  · match tail, hl with
    | [b, c, d], _ => exact ⟨_, .four (by omega) ha' (ht b (by simp)) (ht c (by simp)) (ht d (by simp)) rfl⟩

theorem Framed.functional {bs : List UInt8} {n n' : Nat} (h : Framed bs n) (h' : Framed bs n') : n = n' := by
  cases h <;> cases h' <;> omega

theorem Framed.unique {bs bs' r r' : List UInt8} {n n' : Nat} (h : Framed bs n) (h' : Framed bs' n')
    (he : bs ++ r = bs' ++ r') : bs = bs' ∧ n = n' ∧ r = r' := by
  obtain ⟨a, tail, rfl, -, -, hl, -⟩ := h.eq_cons
  obtain ⟨a', tail', rfl, -, -, hl', -⟩ := h'.eq_cons
  obtain ⟨rfl, ht⟩ := List.cons.inj he
  obtain ⟨rfl, hr⟩ := List.append_inj ht (hl.trans hl'.symm)
  exact ⟨rfl, h.functional h', hr⟩

/-! ## Faults -/

theorem Fault.ne_nil {bs : List UInt8} (h : Fault bs) : bs ≠ [] := by
  have hne : ∀ {as rest : List UInt8} {n : Nat}, Framed as n → as ++ rest ≠ [] := by
    intro as rest n hf
    obtain ⟨a, tail, rfl, -⟩ := hf.eq_cons
    exact List.cons_ne_nil _ _
  cases h with
  | stray _ | foreign _ | truncated _ _ _ => exact List.cons_ne_nil _ _
  | overlong hf _ => exact hne hf
  | surrogate hf _ _ => exact hne hf
  | beyond hf _ => exact hne hf

theorem not_fault {bs rest : List UInt8} {c : Char} (hf : Framed bs c.toNat) (hl : least bs.length ≤ c.toNat) :
    ¬ Fault (bs ++ rest) := by
  intro h
  have hc := toNat_bounds c
  obtain ⟨a, tail, rfl, ha, ha', ht, htail⟩ := hf.eq_cons
  rw [List.cons_append] at h
  generalize hx : a :: (tail ++ rest) = x at h
  -- its bytes alone refute the first three, and the others name a frame, which can only be this one
  cases h with
  | stray hs =>
    obtain ⟨rfl, -⟩ := List.cons.inj hx
    rw [ha] at hs
    cases hs
  | foreign hs =>
    obtain ⟨rfl, -⟩ := List.cons.inj hx
    omega
  | truncated _ _ hs =>
    obtain ⟨rfl, rfl⟩ := List.cons.inj hx
    rw [List.takeWhile_append_of_pos htail, List.length_append] at hs
    omega
  | overlong hf' hs =>
    obtain ⟨rfl, rfl, -⟩ := hf.unique hf' hx
    omega
  | surrogate hf' hs hs' =>
    obtain ⟨-, rfl, -⟩ := hf.unique hf' hx
    omega
  | beyond hf' hs =>
    obtain ⟨-, rfl, -⟩ := hf.unique hf' hx
    omega

theorem Fault.not_wellFormed {bs : List UInt8} (h : Fault bs) (cs : List Char) : ¬ WellFormed bs cs := by
  intro hw
  cases hw with
  | nil => exact h.ne_nil rfl
  | cons hf hl _ => exact not_fault hf hl h

theorem WellFormed.of_append {pre rest : List UInt8} {cs ds : List Char} (h : WellFormed pre cs)
    (h' : WellFormed (pre ++ rest) ds) : ∃ es, WellFormed rest es := by
  induction h generalizing ds with
  | nil => exact ⟨ds, h'⟩
  | @cons bs more c cs hf hl _ ih =>
    rw [List.append_assoc] at h'
    generalize hx : bs ++ (more ++ rest) = x at h'
    cases h' with
    | nil =>
      obtain ⟨a, tail, rfl, -⟩ := hf.eq_cons
      cases hx
    | cons hf' _ hr =>
      obtain ⟨-, -, rfl⟩ := hf.unique hf' hx
      exact ih hr

theorem framed_or_fault (a : UInt8) (rest : List UInt8) :
    (∃ bs n more, a :: rest = bs ++ more ∧ Framed bs n) ∨ Fault (a :: rest) := by
  by_cases ha : continues a = true
  · exact .inr (.stray ha)
  by_cases ha' : 0xF8 ≤ a.toNat
  · exact .inr (.foreign ha')
  by_cases hl : (rest.takeWhile continues).length < following a
  · rcases Nat.lt_or_ge a.toNat 0xC0 with hlt | hge
    · rw [following, if_pos hlt] at hl
      exact absurd hl (Nat.not_lt_zero _)
    · exact .inr (.truncated hge (by omega) hl)
  -- the frame is the first byte and as many of the next as it asks for; all of them continue it
  · have hle : following a ≤ (rest.takeWhile continues).length := by omega
    have htake : ∀ b ∈ (rest.takeWhile continues).take (following a), continues b = true :=
      fun b hb => List.all_eq_true.1 List.all_takeWhile b (List.mem_of_mem_take hb)
    obtain ⟨n, hf⟩ := exists_framed (Bool.eq_false_iff.2 ha) (by omega) (List.length_take_of_le hle) htake
    refine .inl ⟨_, n, (rest.takeWhile continues).drop (following a) ++ rest.dropWhile continues, ?_, hf⟩
    rw [List.cons_append, ← List.append_assoc, List.take_append_drop, List.takeWhile_append_dropWhile]

theorem Framed.char_or_fault {bs : List UInt8} {n : Nat} (h : Framed bs n) (rest : List UInt8) :
    (∃ c : Char, c.toNat = n ∧ least bs.length ≤ n) ∨ Fault (bs ++ rest) := by
  by_cases hl : n < least bs.length
  · exact .inr (.overlong h hl)
  by_cases hs : 0xD800 ≤ n ∧ n ≤ 0xDFFF
  · exact .inr (.surrogate h hs.1 hs.2)
  by_cases hb : 0x10FFFF < n
  · exact .inr (.beyond h hb)
  · have hv : n.isValidChar := by
      unfold Nat.isValidChar
      omega
    exact .inl ⟨Char.ofNatAux n hv, rfl, by omega⟩

theorem wellFormed_or_faulty : ∀ bs : List UInt8, (∃ cs, WellFormed bs cs) ∨ Faulty bs
  | [] => .inl ⟨[], .nil⟩
  | a :: rest => by
    have hfault : Fault (a :: rest) → Faulty (a :: rest) := fun h => ⟨[], a :: rest, [], rfl, .nil, h⟩
    rcases framed_or_fault a rest with ⟨bs, n, more, he, hf⟩ | h
    · rcases hf.char_or_fault more with ⟨c, rfl, hl⟩ | h
      · have hlt : more.length < (a :: rest).length := by
          obtain ⟨_, _, rfl, -⟩ := hf.eq_cons
          rw [he, List.length_append, List.length_cons]
          omega
        rw [he]
        -- a fault further on comes after this character and the text up to it
        rcases wellFormed_or_faulty more with ⟨cs, hw⟩ | ⟨pre, tail, cs, rfl, hw, h⟩
        · exact .inl ⟨c :: cs, .cons hf hl hw⟩
        · exact .inr ⟨bs ++ pre, tail, c :: cs, (List.append_assoc ..).symm, .cons hf hl hw, h⟩
      · exact .inr (hfault (he ▸ h))
    · exact .inr (hfault h)
termination_by bs => bs.length
decreasing_by exact hlt

/-- **Faults.** Bytes are the bytes of no text exactly when a fault follows a text in them. -/
theorem faulty_iff {bs : List UInt8} : Faulty bs ↔ ∀ cs, ¬ WellFormed bs cs := by
  constructor
  · intro hx cs hw
    obtain ⟨pre, rest, ds, rfl, hpre, h⟩ := hx
    obtain ⟨es, hrest⟩ := hpre.of_append hw
    exact h.not_wellFormed es hrest
  · intro h
    rcases wellFormed_or_faulty bs with ⟨cs, hw⟩ | hf
    · exact absurd hw (h cs)
    · exact hf

end Preconditions.Text
