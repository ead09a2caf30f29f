import Preconditions.Proofs.Json.Grammar

/-!
# Text literals against the grammar

Reading takes exactly the literals that decode to characters, skipping takes all literals: `textBody_eq_ok_iff`
and `skipTextBody_eq_ok_iff`.
-/

namespace Preconditions.Json

open Text (hexValue?)

/-! ## Code units of characters -/

theorem toNat_ofNat {n : Nat} (h : n.isValidChar) : (Char.ofNat n).toNat = n := by
  rw [Char.ofNat, dif_pos h]
  rfl

theorem isTrailing_of_isLeading {u : Nat} (h : isLeading u = true) : isTrailing u = false := by
  simp only [isLeading, isTrailing, Bool.and_eq_true, decide_eq_true_eq, Bool.and_eq_false_iff,
    decide_eq_false_iff_not] at h ⊢
  omega

theorem codeUnits_ofNat {u : UInt16} (hl : isLeading u.toNat = false) (ht : isTrailing u.toNat = false) :
    codeUnits (Char.ofNat u.toNat) = [u.toNat] := by
  have hu : u.toNat < 0x10000 := u.toNat_lt
  simp only [isLeading, isTrailing, Bool.and_eq_false_iff, decide_eq_false_iff_not] at hl ht
  have hc : (Char.ofNat u.toNat).toNat = u.toNat := toNat_ofNat (by unfold Nat.isValidChar; omega)
  rw [codeUnits, hc, if_pos hu]

theorem codeUnits_pairChar {u v : Nat} (hu : isLeading u = true) (hv : isTrailing v = true) :
    codeUnits (pairChar u v) = [u, v] := by
  simp only [isLeading, isTrailing, Bool.and_eq_true, decide_eq_true_eq] at hu hv
  have hc : (pairChar u v).toNat = 0x10000 + (u - 0xD800) * 0x400 + (v - 0xDC00) :=
    toNat_ofNat (by unfold Nat.isValidChar; omega)
  rw [codeUnits, hc, if_neg (by omega)]
  simp only [List.cons.injEq, and_true]
  omega

theorem codeUnits_cases (c : Char) :
    (codeUnits c = [c.toNat] ∧ isLeading c.toNat = false ∧ isTrailing c.toNat = false) ∨
      ∃ u v, codeUnits c = [u, v] ∧ isLeading u = true ∧ isTrailing v = true ∧ pairChar u v = c := by
  have hc : c.toNat < 0xD800 ∨ 0xDFFF < c.toNat ∧ c.toNat < 0x110000 := c.valid
  by_cases h : c.toNat < 0x10000
  · refine .inl ⟨if_pos h, ?_, ?_⟩
    · simp only [isLeading, Bool.and_eq_false_iff, decide_eq_false_iff_not]; omega
    · simp only [isTrailing, Bool.and_eq_false_iff, decide_eq_false_iff_not]; omega
  · refine .inr ⟨_, _, if_neg h, ?_, ?_, ?_⟩
    · simp only [isLeading, Bool.and_eq_true, decide_eq_true_eq]; omega
    · simp only [isTrailing, Bool.and_eq_true, decide_eq_true_eq]; omega
    · have hn : 0x10000 + (0xD800 + (c.toNat - 0x10000) / 0x400 - 0xD800) * 0x400 +
          (0xDC00 + (c.toNat - 0x10000) % 0x400 - 0xDC00) = c.toNat := by omega
      rw [pairChar, hn, Char.ofNat_toNat]

theorem codeUnits_append_inj {c d : Char} {x y : List Nat} (h : codeUnits c ++ x = codeUnits d ++ y) :
    c = d ∧ x = y := by
  rcases codeUnits_cases c with ⟨hc, hcl, -⟩ | ⟨u, v, hc, hu, -, rfl⟩ <;>
    rcases codeUnits_cases d with ⟨hd, hdl, -⟩ | ⟨u', v', hd, hu', -, rfl⟩ <;>
    simp only [hc, hd, List.cons_append, List.nil_append, List.cons.injEq] at h
  · exact ⟨Char.toNat_inj.1 h.1, h.2⟩
  · rw [h.1, hu'] at hcl; cases hcl
  · rw [← h.1, hu] at hdl; cases hdl
  · obtain ⟨rfl, rfl, h⟩ := h
    exact ⟨rfl, h⟩

/-! ## Decoding -/

def decode? : List Piece → Option (List Char)
  | [] => some []
  | .char c :: ps => (decode? ps).map (c :: ·)
  | .unit u :: ps =>
    if isTrailing u.toNat then none
    else if isLeading u.toNat then
      match ps with
      | .unit v :: ps => if isTrailing v.toNat then (decode? ps).map (pairChar u.toNat v.toNat :: ·) else none
      | _ => none
    else (decode? ps).map (Char.ofNat u.toNat :: ·)

theorem decode?_unit {u : UInt16} (hl : isLeading u.toNat = false) (ht : isTrailing u.toNat = false)
    (ps : List Piece) : decode? (.unit u :: ps) = (decode? ps).map (Char.ofNat u.toNat :: ·) := by
  rw [decode?.eq_def]
  simp [hl, ht]

theorem decode?_pair {u v : UInt16} (hl : isLeading u.toNat = true) (ht : isTrailing v.toNat = true)
    (ps : List Piece) :
    decode? (.unit u :: .unit v :: ps) = (decode? ps).map (pairChar u.toNat v.toNat :: ·) := by
  simp [decode?, hl, ht, isTrailing_of_isLeading hl]

theorem decodes_of_decode? {ps : List Piece} {cs : List Char} (h : decode? ps = some cs) : Decodes ps cs := by
  unfold Decodes
  fun_induction decode? ps generalizing cs with
  | case1 => cases h; rfl
  | case2 c ps ih =>
    obtain ⟨ds, hds, rfl⟩ := Option.map_eq_some_iff.1 h
    simp [ih hds, Piece.units]
  | case3 => cases h
  | case4 u ht hl v ps hv ih =>
    obtain ⟨ds, hds, rfl⟩ := Option.map_eq_some_iff.1 h
    simp [ih hds, Piece.units, codeUnits_pairChar hl hv]
  | case5 => cases h
  | case6 => cases h
  | case7 u ps ht hl ih =>
    obtain ⟨ds, hds, rfl⟩ := Option.map_eq_some_iff.1 h
    simp [ih hds, Piece.units, codeUnits_ofNat (by simpa using hl) (by simpa using ht)]

theorem isTrailing_of_append {c : Char} {v : Nat} {x y : List Nat} (h : codeUnits c ++ x = v :: y) :
    isTrailing v = false := by
  rcases codeUnits_cases c with ⟨hc, -, ht⟩ | ⟨u, w, hc, hu, -⟩ <;> rw [hc] at h <;> cases h
  · exact ht
  · exact isTrailing_of_isLeading hu

theorem unit_cases {u : Nat} {x : List Nat} {cs : List Char} (h : u :: x = cs.flatMap codeUnits) :
    (isLeading u = false ∧ isTrailing u = false ∧ ∃ ds, cs = Char.ofNat u :: ds ∧ x = ds.flatMap codeUnits) ∨
      isLeading u = true ∧ ∃ v ds, isTrailing v = true ∧ cs = pairChar u v :: ds ∧
        x = v :: ds.flatMap codeUnits := by
  cases cs with
  | nil => cases h
  | cons c ds =>
    rw [List.flatMap_cons] at h
    rcases codeUnits_cases c with ⟨hc, hl, ht⟩ | ⟨v, w, hc, hv, hw, rfl⟩ <;> rw [hc] at h <;> cases h
    · exact .inl ⟨hl, ht, ds, by rw [Char.ofNat_toNat], rfl⟩
    · exact .inr ⟨hv, w, ds, hw, rfl, rfl⟩

theorem decode?_of_decodes {ps : List Piece} {cs : List Char} (h : Decodes ps cs) : decode? ps = some cs := by
  unfold Decodes at h
  fun_induction decode? ps generalizing cs with
  | case1 =>
    cases cs with
    | nil => rfl
    | cons c cs => rcases codeUnits_cases c with ⟨hc, -⟩ | ⟨u, v, hc, -⟩ <;> simp [hc] at h
  | case2 c ps ih =>
    cases cs with
    | nil => rcases codeUnits_cases c with ⟨hc, -⟩ | ⟨u, v, hc, -⟩ <;> simp [Piece.units, hc] at h
    | cons d ds =>
      obtain ⟨rfl, hx⟩ := codeUnits_append_inj h
      rw [ih hx]; rfl
  | case3 u ps ht =>
    replace h : u.toNat :: ps.flatMap Piece.units = cs.flatMap codeUnits := h
    rcases unit_cases h with ⟨-, ht', -⟩ | ⟨hl, -⟩
    · rw [ht] at ht'; cases ht'
    · rw [isTrailing_of_isLeading hl] at ht; cases ht
  | case4 u ht hl v ps hv ih =>
    replace h : u.toNat :: v.toNat :: ps.flatMap Piece.units = cs.flatMap codeUnits := h
    rcases unit_cases h with ⟨hl', -⟩ | ⟨-, v', ds, hv', rfl, hx⟩
    · rw [hl] at hl'; cases hl'
    · obtain ⟨rfl, hy⟩ := List.cons.inj hx
      rw [ih hy]; rfl
  | case5 u ht hl v ps hv =>
    replace h : u.toNat :: v.toNat :: ps.flatMap Piece.units = cs.flatMap codeUnits := h
    rcases unit_cases h with ⟨hl', -⟩ | ⟨-, v', ds, hv', rfl, hx⟩
    · rw [hl] at hl'; cases hl'
    · obtain ⟨rfl, -⟩ := List.cons.inj hx
      exact absurd hv' hv
  | case6 u ps ht hl hps =>
    replace h : u.toNat :: ps.flatMap Piece.units = cs.flatMap codeUnits := h
    rcases unit_cases h with ⟨hl', -⟩ | ⟨-, v, ds, hv, rfl, hx⟩
    · rw [hl] at hl'; cases hl'
    · -- the pair's second half would have to come from a piece that is no unit
      cases ps with
      | nil => cases hx
      | cons p ps =>
        cases p with
        | char c => rw [isTrailing_of_append hx] at hv; cases hv
        | unit w => exact absurd rfl (hps w ps)
  | case7 u ps ht hl ih =>
    replace h : u.toNat :: ps.flatMap Piece.units = cs.flatMap codeUnits := h
    rcases unit_cases h with ⟨-, -, ds, rfl, hx⟩ | ⟨hl', -⟩
    · rw [ih hx]; rfl
    · exact absurd hl' hl

theorem decode?_eq_some_iff {ps : List Piece} {cs : List Char} : decode? ps = some cs ↔ Decodes ps cs :=
  ⟨decodes_of_decode?, decode?_of_decodes⟩

/-! ## Escapes -/

theorem shortEscape?_eq_some_iff {e c : Char} : shortEscape? e = some c ↔ (e, c) ∈ escapeLetters := by
  constructor
  · intro h
    unfold shortEscape? at h
    split at h <;> cases h <;> decide
  · intro h
    simp only [escapeLetters, List.mem_cons, Prod.mk.injEq, List.not_mem_nil, or_false] at h
    rcases h with ⟨rfl, rfl⟩ | ⟨rfl, rfl⟩ | ⟨rfl, rfl⟩ | ⟨rfl, rfl⟩ | ⟨rfl, rfl⟩ | ⟨rfl, rfl⟩ | ⟨rfl, rfl⟩ |
      ⟨rfl, rfl⟩ <;> rfl

theorem hexValue?_lt {c : Char} {n : Nat} (h : hexValue? c = some n) : n < 16 := by
  have h9 : ('9' : Char).toNat = 57 := rfl
  have hf : ('f' : Char).toNat = 102 := rfl
  have hF : ('F' : Char).toNat = 70 := rfl
  unfold hexValue? at h
  split at h
  · rename_i hc
    have : c.toNat ≤ ('9' : Char).toNat := hc.2
    cases h; omega
  split at h
  · rename_i hc
    have : c.toNat ≤ ('f' : Char).toNat := hc.2
    cases h; omega
  split at h
  · rename_i hc
    have : c.toNat ≤ ('F' : Char).toNat := hc.2
    cases h; omega
  · cases h

theorem hexUnit?_lt {a b c d : Char} {n : Nat} (h : hexUnit? a b c d = some n) : n < 0x10000 := by
  simp only [hexUnit?, Option.pure_def, Option.bind_eq_bind, Option.bind_eq_some_iff, Option.some.injEq] at h
  obtain ⟨x, hx, y, hy, z, hz, w, hw, rfl⟩ := h
  have := hexValue?_lt hx
  have := hexValue?_lt hy
  have := hexValue?_lt hz
  have := hexValue?_lt hw
  omega

theorem hexUnit_sound {s r : List Char} {n : Nat} (h : hexUnit s = .ok (n, r)) :
    ∃ x, ∃ u : UInt16, u.toNat = n ∧ s = x ++ r ∧ (Piece.unit u).Spelled ('\\' :: 'u' :: x) := by
  unfold hexUnit at h
  split at h
  · rename_i a b c d t
    split at h
    · rename_i m hm
      cases h
      have hu : (UInt16.ofNat n).toNat = n := UInt16.toNat_ofNat_of_lt (hexUnit?_lt hm)
      exact ⟨[a, b, c, d], UInt16.ofNat n, hu, rfl, .hexadecimal (by rw [hu]; exact hm)⟩
    · cases h
  · split at h <;> cases h

theorem hexUnit_complete {a b c d : Char} {u : UInt16} (h : hexUnit? a b c d = some u.toNat) (s : List Char) :
    hexUnit (a :: b :: c :: d :: s) = .ok (u.toNat, s) := by
  rw [hexUnit, h]

theorem eq_cons_of_pairLink {c : Char} {s r : List Char} {u : Unit} (h : pairLink c s = .ok (u, r)) :
    s = c :: r := by
  unfold pairLink at h
  split at h
  · cases h
  · split at h
    · rename_i hc
      cases h
      rw [hc]
    · cases h

theorem trailingUnit_sound {s r : List Char} {n : Nat} (h : trailingUnit s = .ok (n, r)) :
    ∃ x, ∃ u : UInt16, u.toNat = n ∧ s = x ++ r ∧ (Piece.unit u).Spelled x := by
  obtain ⟨_, t, ht, h⟩ := Reading.andThen_eq_ok.1 h
  obtain ⟨_, t', ht', h⟩ := Reading.andThen_eq_ok.1 h
  obtain ⟨x, u, hu, rfl, hx⟩ := hexUnit_sound h
  exact ⟨_, u, hu, by rw [eq_cons_of_pairLink ht, eq_cons_of_pairLink ht']; rfl, hx⟩

def EscapeOf (d : Char) (w : List Char) : Prop :=
  ∃ ps, TextSpelled ps ('\\' :: w) ∧ ∀ qs, decode? (ps ++ qs) = (decode? qs).map (d :: ·)

theorem codeChar_sound {s r : List Char} {d : Char} (h : codeChar s = .ok (d, r)) :
    ∃ w, s = w ++ r ∧ EscapeOf d ('u' :: w) := by
  obtain ⟨n, t, hn, hk⟩ := Reading.andThen_eq_ok.1 h
  obtain ⟨x, u, rfl, rfl, hx⟩ := hexUnit_sound hn
  split at hk
  · cases hk
  rename_i ht
  split at hk
  · rename_i hl
    obtain ⟨m, t', hm, hv⟩ := Reading.andThen_eq_ok.1 hk
    obtain ⟨y, v, rfl, rfl, hy⟩ := trailingUnit_sound hm
    split at hv
    · rename_i htv
      simp only [Except.ok.injEq, Prod.mk.injEq] at hv
      obtain ⟨rfl, rfl⟩ := hv
      refine ⟨x ++ y, by simp, [.unit u, .unit v], ?_, fun qs => decode?_pair hl htv qs⟩
      simpa using TextSpelled.cons hx (TextSpelled.cons hy TextSpelled.nil)
    · cases hv
  · rename_i hl
    cases hk
    refine ⟨x, rfl, [.unit u], ?_, fun qs => decode?_unit (by simpa using hl) (by simpa using ht) qs⟩
    simpa using TextSpelled.cons hx TextSpelled.nil

theorem escape_sound {s r : List Char} {d : Char} (h : escape s = .ok (d, r)) :
    ∃ w, s = w ++ r ∧ EscapeOf d w := by
  unfold escape at h
  split at h
  · cases h
  · rename_i e t
    split at h
    · rename_i c he
      cases h
      exact ⟨[e], rfl, [.char d], .cons (.letter (shortEscape?_eq_some_iff.1 he)) .nil, fun _ => rfl⟩
    · split at h
      · rename_i hu
        subst hu
        obtain ⟨w, rfl, hw⟩ := codeChar_sound h
        exact ⟨'u' :: w, rfl, hw⟩
      · cases h

theorem escape_letter {e c : Char} (h : (e, c) ∈ escapeLetters) (s : List Char) :
    escape (e :: s) = .ok (c, s) := by
  rw [escape, shortEscape?_eq_some_iff.2 h]

theorem escape_unit {a b c d : Char} {u : UInt16} (h : hexUnit? a b c d = some u.toNat)
    (hl : isLeading u.toNat = false) (ht : isTrailing u.toNat = false) (s : List Char) :
    escape ('u' :: a :: b :: c :: d :: s) = .ok (Char.ofNat u.toNat, s) := by
  simp [escape, shortEscape?, codeChar, hexUnit_complete h, Reading.andThen, hl, ht]

theorem escape_pair {a b c d a' b' c' d' : Char} {u v : UInt16} (hu : hexUnit? a b c d = some u.toNat)
    (hv : hexUnit? a' b' c' d' = some v.toNat) (hl : isLeading u.toNat = true)
    (ht : isTrailing v.toNat = true) (s : List Char) :
    escape ('u' :: a :: b :: c :: d :: '\\' :: 'u' :: a' :: b' :: c' :: d' :: s) =
      .ok (pairChar u.toNat v.toNat, s) := by
  simp [escape, shortEscape?, codeChar, hexUnit_complete hu, hexUnit_complete hv, Reading.andThen,
    trailingUnit, pairLink, hl, ht, isTrailing_of_isLeading hl]

/-! ## Reading -/

theorem textSpelled_append {ps qs : List Piece} {w x : List Char} (hp : TextSpelled ps w)
    (hq : TextSpelled qs x) : TextSpelled (ps ++ qs) (w ++ x) := by
  induction hp with
  | nil => exact hq
  | cons hx _ ih => rw [List.append_assoc]; exact .cons hx ih

theorem spelled_plain {c : Char} (hq : ¬ c = '"') (hb : ¬ c = '\\') (hc : ¬ isControl c = true) :
    (Piece.char c).Spelled [c] := by
  have hc' : 0x20 ≤ c.toNat := by simpa [isControl] using hc
  exact .plain hc' hq hb

theorem textBody_sound {s r cs : List Char} (h : textBody s = .ok (cs, r)) :
    ∃ ps w, TextSpelled ps w ∧ s = w ++ '"' :: r ∧ decode? ps = some cs := by
  fun_induction textBody s generalizing cs with
  | case1 => cases h
  | case2 s => cases h; exact ⟨[], [], .nil, rfl, rfl⟩
  | case3 s d t he _ ih =>
    obtain ⟨ds, u, hu, h⟩ := Reading.andThen_eq_ok.1 h
    cases h
    obtain ⟨ps, w, hw, rfl, hps⟩ := ih hu
    obtain ⟨x, rfl, qs, hx, hqs⟩ := escape_sound he
    exact ⟨qs ++ ps, _, textSpelled_append hx hw, by simp, by rw [hqs, hps]; rfl⟩
  | case4 => cases h
  | case5 => cases h
  | case6 c s hq hb hc ih =>
    obtain ⟨ds, u, hu, h⟩ := Reading.andThen_eq_ok.1 h
    cases h
    obtain ⟨ps, w, hw, rfl, hps⟩ := ih hu
    exact ⟨.char c :: ps, _, .cons (spelled_plain hq hb hc) hw, by simp, by rw [decode?, hps]; rfl⟩

theorem textSpelled_unit {u : UInt16} {ps : List Piece} {w : List Char} (h : TextSpelled (.unit u :: ps) w) :
    ∃ a b c d t, w = '\\' :: 'u' :: a :: b :: c :: d :: t ∧ hexUnit? a b c d = some u.toNat ∧
      TextSpelled ps t := by
  cases h with
  | cons hx hw =>
    cases hx with
    | hexadecimal hu => exact ⟨_, _, _, _, _, rfl, hu, hw⟩

theorem textBody_complete {ps : List Piece} {w cs : List Char} (hw : TextSpelled ps w)
    (h : decode? ps = some cs) (r : List Char) : textBody (w ++ '"' :: r) = .ok (cs, r) := by
  fun_induction decode? ps generalizing w cs with
  | case1 =>
    cases hw
    cases h
    exact textBody_quote r
  | case2 c ps ih =>
    obtain ⟨ds, hds, rfl⟩ := Option.map_eq_some_iff.1 h
    cases hw with
    | cons hx hw =>
      cases hx with
      | plain hc hq hb =>
        have hc' : isControl c = false := by simpa [isControl] using hc
        rw [List.append_assoc, List.singleton_append, textBody_plain hq hb hc', ih hw hds]
        rfl
      | letter he =>
        rw [List.append_assoc, List.cons_append, List.singleton_append, textBody_escaped (escape_letter he _),
          ih hw hds]
        rfl
  | case3 => cases h
  | case4 u ht hl v ps hv ih =>
    obtain ⟨ds, hds, rfl⟩ := Option.map_eq_some_iff.1 h
    obtain ⟨a, b, c, d, t, rfl, hu, hw⟩ := textSpelled_unit hw
    obtain ⟨a', b', c', d', t', rfl, hv', hw⟩ := textSpelled_unit hw
    simp only [List.cons_append]
    rw [textBody_escaped (escape_pair hu hv' hl hv _), ih hw hds]
    rfl
  | case5 => cases h
  | case6 => cases h
  | case7 u ps ht hl ih =>
    obtain ⟨ds, hds, rfl⟩ := Option.map_eq_some_iff.1 h
    obtain ⟨a, b, c, d, t, rfl, hu, hw⟩ := textSpelled_unit hw
    simp only [List.cons_append]
    rw [textBody_escaped (escape_unit hu (by simpa using hl) (by simpa using ht) _), ih hw hds]
    rfl

/-- **Reading a literal.** What is read is a literal that decodes, and its characters. -/
theorem textBody_eq_ok_iff {s r cs : List Char} :
    textBody s = .ok (cs, r) ↔ ∃ ps w, TextSpelled ps w ∧ s = w ++ '"' :: r ∧ Decodes ps cs := by
  constructor
  · intro h
    obtain ⟨ps, w, hw, hs, hps⟩ := textBody_sound h
    exact ⟨ps, w, hw, hs, decodes_of_decode? hps⟩
  · intro hx
    obtain ⟨ps, w, hw, rfl, hps⟩ := hx
    exact textBody_complete hw (decode?_of_decodes hps) r

/-! ## Skipping -/

theorem skipTextBody_escaped {s r : List Char} (h : skipEscape s = .ok ((), r)) :
    skipTextBody ('\\' :: s) = skipTextBody r := by
  rw [skipTextBody]
  simp only [show ¬ ('\\' = '"') by decide, if_false, if_true]
  split
  · rename_i r' h'; rw [h] at h'; cases h'; rfl
  · rename_i f h'; rw [h] at h'; cases h'

theorem skipEscape_sound {s r : List Char} {u : Unit} (h : skipEscape s = .ok (u, r)) :
    ∃ p x, s = x ++ r ∧ Piece.Spelled p ('\\' :: x) := by
  unfold skipEscape at h
  split at h
  · cases h
  · rename_i e t
    split at h
    · rename_i c he
      cases h
      exact ⟨.char c, [e], rfl, .letter (shortEscape?_eq_some_iff.1 he)⟩
    · split at h
      · rename_i hu
        subst hu
        obtain ⟨n, t', hn, h⟩ := Reading.andThen_eq_ok.1 h
        cases h
        obtain ⟨x, v, -, rfl, hx⟩ := hexUnit_sound hn
        exact ⟨.unit v, 'u' :: x, rfl, hx⟩
      · cases h

theorem skipTextBody_sound {s r : List Char} {u : Unit} (h : skipTextBody s = .ok (u, r)) :
    ∃ ps w, TextSpelled ps w ∧ s = w ++ '"' :: r := by
  fun_induction skipTextBody s with
  | case1 => cases h
  | case2 s => cases h; exact ⟨[], [], .nil, rfl⟩
  | case3 s _ t he _ ih =>
    obtain ⟨ps, w, hw, rfl⟩ := ih h
    obtain ⟨p, x, rfl, hx⟩ := skipEscape_sound he
    exact ⟨p :: ps, _, .cons hx hw, by simp⟩
  | case4 => cases h
  | case5 => cases h
  | case6 c s hq hb hc ih =>
    obtain ⟨ps, w, hw, rfl⟩ := ih h
    exact ⟨.char c :: ps, _, .cons (spelled_plain hq hb hc) hw, by simp⟩

theorem skipTextBody_spelled {p : Piece} {x : List Char} (h : p.Spelled x) (s : List Char) :
    skipTextBody (x ++ s) = skipTextBody s := by
  cases h with
  | @plain c hc hq hb =>
    have hc' : isControl c = false := by simpa [isControl] using hc
    rw [List.singleton_append, skipTextBody]
    simp [hq, hb, hc']
  | letter he =>
    exact skipTextBody_escaped (by simp [skipEscape, shortEscape?_eq_some_iff.2 he])
  | hexadecimal hu =>
    exact skipTextBody_escaped (by simp [skipEscape, shortEscape?, hexUnit_complete hu, Reading.andThen])

theorem skipTextBody_complete {ps : List Piece} {w : List Char} (h : TextSpelled ps w) (r : List Char) :
    skipTextBody (w ++ '"' :: r) = .ok ((), r) := by
  induction h with
  | nil => rw [List.nil_append, skipTextBody]; rfl
  | cons hx _ ih => rw [List.append_assoc, skipTextBody_spelled hx, ih]

/-- **Skipping a literal.** Every literal is passed over, whether it decodes or not. -/
theorem skipTextBody_eq_ok_iff {s r : List Char} :
    skipTextBody s = .ok ((), r) ↔ ∃ ps w, TextSpelled ps w ∧ s = w ++ '"' :: r := by
  constructor
  · exact skipTextBody_sound
  · intro hx
    obtain ⟨ps, w, hw, rfl⟩ := hx
    exact skipTextBody_complete hw r

end Preconditions.Json
