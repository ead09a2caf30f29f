import Preconditions.Proofs.Json.Locality

/-!
# Numbers in texts that begin alike

Digits end where another character is seen, so a number is taken once the character after it is known. The one fault
that comes before the end of a literal is an exponent past its limit: the digits after the one that takes it there have
no part in it, also where the shared part ends among them.
-/

namespace Preconditions.Json

open Decimal (Double)

/-! ## Digits -/

section
variable {α : Type} {p : List Char} {ending : Cause}

theorem digits_cut (p : List Char) :
    (∀ u, (p ++ u).takeWhile Char.isDigit = p.takeWhile Char.isDigit ∧
      (p ++ u).dropWhile Char.isDigit = p.dropWhile Char.isDigit ++ u) ∨
    ∀ u, (p ++ u).takeWhile Char.isDigit = p ++ u.takeWhile Char.isDigit ∧
      (p ++ u).dropWhile Char.isDigit = u.dropWhile Char.isDigit := by
  have hdigits : ∀ c ∈ p.takeWhile Char.isDigit, c.isDigit = true := List.all_eq_true.1 List.all_takeWhile
  have hp : p.takeWhile Char.isDigit ++ p.dropWhile Char.isDigit = p := List.takeWhile_append_dropWhile
  cases hd : p.dropWhile Char.isDigit with
  | nil =>
    rw [hd, List.append_nil] at hp
    rw [hp] at hdigits
    exact .inr fun u => ⟨List.takeWhile_append_of_pos hdigits, List.dropWhile_append_of_pos hdigits⟩
  | cons c t =>
    have hc := List.head?_dropWhile_not Char.isDigit p
    rw [hd] at hc
    have hstop : ∀ u, NoDigit (c :: t ++ u) := fun u => noDigit_cons (by simpa using hc)
    rw [hd] at hp
    refine .inl fun u => ?_
    have htake := takeWhile_digits hdigits (hstop u)
    have hdrop := dropWhile_digits hdigits (hstop u)
    rw [← List.append_assoc, hp] at htake hdrop
    exact ⟨htake, hdrop⟩

theorem steady_digits {J : List Char → List Char → Reading α}
    (hwhole : ∀ q, Steady (J (p.takeWhile Char.isDigit)) q)
    (hcut : ∀ u v, Agrees u v (J (p ++ u.takeWhile Char.isDigit) (u.dropWhile Char.isDigit))
      (J (p ++ v.takeWhile Char.isDigit) (v.dropWhile Char.isDigit))) :
    Steady (fun s => J (s.takeWhile Char.isDigit) (s.dropWhile Char.isDigit)) p where
  agrees u v := by
    obtain h | h := digits_cut p
    · simp only [h u, h v]
      exact (hwhole _).agrees u v
    · simp only [h u, h v]
      exact hcut u v
  ends := (hwhole _).ends

theorem steady_digits_ok (g : List Char → α) :
    Steady (fun s => .ok (g (s.takeWhile Char.isDigit), s.dropWhile Char.isDigit)) p :=
  steady_digits (J := fun ds r => .ok (g ds, r)) (fun _ => steady_ok _) fun _ v =>
    (within_ok (List.dropWhile_suffix _)).agrees v _

/-! ## Scanning -/

theorem wholePart_local (ending : Cause) : Local (wholePart ending) := by
  apply local_of_cons (wholePart_within ending)
  intro c p
  apply Steady.ite
  · -- a digit after the zero is looked at
    refine (local_of_cons (fun s => ?_) fun d q => ?_).steady p
    · split
      · exact within_next List.suffix_rfl
      · exact within_ok List.suffix_rfl
    · show Steady (fun s => if d.isDigit then .error (.next .invalidNumber (d :: s)) else .ok ([c], d :: s)) q
      exact (steady_error (by rintro ⟨⟩) [d] 1).ite (steady_put [c] [d])
  · exact (steady_digits_ok (c :: ·)).ite (steady_error (by rintro ⟨⟩) [c] 1)

theorem exponentDigits_local (ending : Cause) : Local (exponentDigits ending) := by
  apply local_of_cons (exponentDigits_within ending)
  intro c p
  exact (steady_digits_ok (c :: ·)).ite (steady_error (by rintro ⟨⟩) [c] 1)

theorem fractionPart_point (ending : Cause) (s : List Char) :
    fractionPart ending ('.' :: s) =
      match s with
      | [] => .error (.next ending [])
      | c :: t =>
        if c.isDigit then .ok (c :: t.takeWhile Char.isDigit, t.dropWhile Char.isDigit)
        else .error (.next .invalidNumber (c :: t)) := by
  cases s with
  | nil => rfl
  | cons c t =>
    by_cases hc : c.isDigit
    · simp [fractionPart, hc]
    · simp [fractionPart, hc]

theorem fractionPart_local (ending : Cause) : Local (fractionPart ending) := by
  apply local_of_cons (fractionPart_within ending)
  intro c p
  by_cases hc : c = '.'
  · subst hc
    simp only [fractionPart_point]
    refine (local_of_cons (fun s => ?_) fun d q => ?_).steady p
    · split
      · exact within_next List.suffix_rfl
      · split
        · exact within_ok (dropWhile_suffix_cons _ _ _)
        · exact within_next List.suffix_rfl
    · exact (steady_digits_ok (d :: ·)).ite (steady_error (by rintro ⟨⟩) [d] 1)
  · have hnone : ∀ s, fractionPart ending (c :: s) = .ok ([], c :: s) := by
      intro s
      unfold fractionPart
      split
      · rename_i hs
        exact absurd (List.head_eq_of_cons_eq hs) hc
      · rfl
    simp only [hnone]
    exact steady_put [] [c]

theorem Reading.andThen_assoc {β γ : Type} (x : Reading α) (k : α → List Char → Reading β)
    (l : β → List Char → Reading γ) : (x.andThen k).andThen l = x.andThen fun a s => (k a s).andThen l := by
  rcases x with f | ⟨a, s⟩ <;> rfl

theorem exponentPart_andThen_local {J : Option Exponent → List Char → Reading α} (hnone : Local (J none))
    (hsome : ∀ negative, Local fun s => (exponentDigits ending s).andThen fun ds r => J (some ⟨negative, ds⟩) r) :
    Local fun s => (exponentPart ending s).andThen J := by
  have hcons : ∀ c s, (exponentPart ending (c :: s)).andThen J =
      if c = 'e' ∨ c = 'E' then
        (exponentDigits ending (exponentSign s).2).andThen fun ds r => J (some ⟨(exponentSign s).1, ds⟩) r
      else J none (c :: s) := by
    intro c s
    simp only [exponentPart]
    split
    · exact Reading.andThen_assoc _ _ _
    · rfl
  have hsign : Local fun s =>
      (exponentDigits ending (exponentSign s).2).andThen fun ds r => J (some ⟨(exponentSign s).1, ds⟩) r := by
    apply local_of_cons
    · exact fun s => ((hsome _).within _).mono (exponentSign_suffix s)
    intro c p
    by_cases hm : c = '-'
    · subst hm
      exact (hsome true).steady p
    by_cases hp : c = '+'
    · subst hp
      exact (hsome false).steady p
    · have hdigit : ∀ s, exponentSign (c :: s) = (false, c :: s) := by
        intro s
        unfold exponentSign
        split
        · rename_i hs
          exact absurd (List.head_eq_of_cons_eq hs) hm
        · rename_i hs
          exact absurd (List.head_eq_of_cons_eq hs) hp
        · rfl
      simp only [hdigit]
      exact ((hsome false).steady (c :: p)).tail
  apply local_of_cons
  · intro s
    cases s with
    | nil => exact hnone.within []
    | cons c s =>
      rw [hcons]
      split
      · exact (hsign.within s).mono (List.suffix_cons _ _)
      · exact hnone.within (c :: s)
  · intro c p
    simp only [hcons]
    exact (hsign.steady p).ite (hnone.steady (c :: p)).tail

theorem minusSign_of_ne {c : Char} (hc : c ≠ '-') (s : List Char) : minusSign (c :: s) = (false, c :: s) := by
  unfold minusSign
  split
  · rename_i hs
    exact absurd (List.head_eq_of_cons_eq hs) hc
  · rfl

theorem scanLiteral_andThen_local {J : Literal → List Char → Reading α}
    (h : ∀ negative whole fraction, Local fun s =>
      (exponentPart ending s).andThen fun exponent r => J ⟨negative, whole, fraction, exponent⟩ r) :
    Local fun s => (scanLiteral ending s).andThen J := by
  have hunsigned : ∀ negative, Local fun s =>
      (wholePart ending s).andThen fun whole t => (fractionPart ending t).andThen fun fraction u =>
        (exponentPart ending u).andThen fun exponent r => J ⟨negative, whole, fraction, exponent⟩ r :=
    fun negative => (wholePart_local ending).andThen fun whole => (fractionPart_local ending).andThen fun fraction =>
      h negative whole fraction
  have hsigned : ∀ s, (scanLiteral ending s).andThen J =
      (wholePart ending (minusSign s).2).andThen fun whole t => (fractionPart ending t).andThen fun fraction u =>
        (exponentPart ending u).andThen fun exponent r => J ⟨(minusSign s).1, whole, fraction, exponent⟩ r := by
    intro s
    simp only [scanLiteral, Reading.andThen_assoc]
    rfl
  simp only [hsigned]
  apply local_of_cons
  · exact fun s => ((hunsigned _).within _).mono (minusSign_suffix s)
  intro c p
  by_cases hm : c = '-'
  · subst hm
    exact (hunsigned true).steady p
  · simp only [minusSign_of_ne hm]
    exact ((hunsigned false).steady (c :: p)).tail

/-! ## Values -/

def Literal.settle (l : Literal) (rest : List Char) : Reading Number :=
  match l.excess with
  | some left =>
    if l.vanishes then .ok (.double (Double.zero.withSign l.negative), rest)
    else .error (.here .numberOutOfRange (left ++ rest))
  | none =>
    match l.number? with
    | some n => .ok (n, rest)
    | none => .error (.here .numberOutOfRange rest)

theorem Literal.steady_settle (l : Literal) : Steady l.settle p := by
  unfold settle
  cases l.excess with
  | some left => exact (steady_ok _).ite (steady_error (by rintro ⟨⟩) left 0)
  | none =>
    cases l.number? with
    | some n => exact steady_ok n
    | none => exact steady_error (by rintro ⟨⟩) [] 0

theorem Literal.settle_excess {l : Literal} {left : List Char} (h : l.excess = some left) (hv : l.vanishes = false)
    (rest : List Char) : l.settle rest = .error (.here .numberOutOfRange (left ++ rest)) := by
  simp [settle, h, hv]

theorem Literal.settle_cases (l : Literal) (rest : List Char) :
    Within rest (l.settle rest) ∨ ∃ left, l.excess = some left ∧ l.vanishes = false := by
  unfold settle
  split
  · rename_i left hx
    split
    · exact .inl (within_ok List.suffix_rfl)
    · rename_i hv
      exact .inr ⟨left, hx, Bool.eq_false_iff.2 hv⟩
  · split
    · exact .inl (within_ok List.suffix_rfl)
    · exact .inl (within_here List.suffix_rfl)

theorem pastLimit_append {n : Nat} {ds left : List Char} (h : pastLimit n ds = some left) (es : List Char) :
    pastLimit n (ds ++ es) = some (left ++ es) := by
  fun_induction pastLimit n ds with
  | case1 => cases h
  | case2 n c ds hc =>
    cases h
    rw [List.cons_append, pastLimit, if_pos hc]
  | case3 n c ds hc ih => rw [List.cons_append, pastLimit, if_neg hc, ih h]

theorem pastLimit_cut {n : Nat} {ds es left : List Char} (hleft : left ≠ [])
    (h : pastLimit n (ds ++ es) = some (left ++ es)) : pastLimit n ds = some left := by
  induction ds generalizing n with
  | nil => exact absurd (eq_nil_of_append_suffix (pastLimit_suffix h)) hleft
  | cons c ds ih =>
    rw [List.cons_append, pastLimit] at h
    rw [pastLimit]
    split at h
    · rename_i hc
      rw [if_pos hc, List.append_cancel_right (Option.some.inj h)]
    · rename_i hc
      rw [if_neg hc]
      exact ih h

def Literal.raised (l : Literal) (negative : Bool) (ds : List Char) : Literal :=
  { l with exponent := some ⟨negative, ds⟩ }

theorem Literal.agrees_raised (l : Literal) (negative : Bool) (p u v : List Char) :
    Agrees u v ((l.raised negative (p ++ u.takeWhile Char.isDigit)).settle (u.dropWhile Char.isDigit))
      ((l.raised negative (p ++ v.takeWhile Char.isDigit)).settle (v.dropWhile Char.isDigit)) := by
  have hu : u.takeWhile Char.isDigit ++ u.dropWhile Char.isDigit = u := List.takeWhile_append_dropWhile
  have hv : v.takeWhile Char.isDigit ++ v.dropWhile Char.isDigit = v := List.takeWhile_append_dropWhile
  obtain h | ⟨left, hx, hvanish⟩ := settle_cases (l.raised negative _) (u.dropWhile Char.isDigit)
  · exact (h.mono (List.dropWhile_suffix _)).agrees v _
  · rw [settle_excess hx hvanish]
    refine ⟨nofun, fun {c q n} hn he => ?_⟩
    obtain ⟨rfl, hq, rfl⟩ := Fault.mk.inj (Except.error.inj he)
    have hne : q ≠ [] := by
      rintro rfl
      exact absurd hn (Nat.not_lt_zero _)
    have hleft : left ++ u.dropWhile Char.isDigit = q ++ u.takeWhile Char.isDigit ++ u.dropWhile Char.isDigit := by
      rw [List.append_assoc, hu]
      exact hq
    obtain rfl := List.append_cancel_right hleft
    have hpast : (l.raised negative (p ++ v.takeWhile Char.isDigit)).excess = some (q ++ v.takeWhile Char.isDigit) :=
      pastLimit_append (pastLimit_cut hne hx) _
    rw [settle_excess hpast hvanish, List.append_assoc, hv]
    rfl

theorem Literal.raised_local (l : Literal) (negative : Bool) :
    Local fun s => (exponentDigits .endInValue s).andThen fun ds r => (l.raised negative ds).settle r := by
  apply local_of_cons
  · intro s
    cases hs : exponentDigits .endInValue s with
    | error f =>
      have hw := exponentDigits_within .endInValue s
      rw [hs] at hw
      exact hw
    | ok a =>
      obtain ⟨ds, r⟩ := a
      obtain rfl := exponentDigits_eq hs
      show Within (ds ++ r) ((l.raised negative ds).settle r)
      obtain h | ⟨left, hx, hvanish⟩ := settle_cases (l.raised negative ds) r
      · exact h.mono (List.suffix_append ds r)
      · obtain ⟨w, hw⟩ := pastLimit_suffix hx
        rw [settle_excess hx hvanish]
        exact within_here ⟨w, by rw [← List.append_assoc, hw]⟩
  · intro c p
    have hcons : ∀ s, ((exponentDigits .endInValue (c :: s)).andThen fun ds r => (l.raised negative ds).settle r) =
        if c.isDigit then (l.raised negative (c :: s.takeWhile Char.isDigit)).settle (s.dropWhile Char.isDigit)
        else .error (.next .invalidNumber (c :: s)) := by
      intro s
      simp only [exponentDigits]
      split <;> rfl
    simp only [hcons]
    refine Steady.ite ?_ (steady_error (by rintro ⟨⟩) [c] 1)
    exact steady_digits (J := fun ds r => (l.raised negative (c :: ds)).settle r) (fun _ => steady_settle _) fun u v =>
      l.agrees_raised negative (c :: p) u v

theorem readNumber_local : Local readNumber := by
  show Local fun s => (scanLiteral .endInValue s).andThen Literal.settle
  refine scanLiteral_andThen_local fun negative whole fraction => exponentPart_andThen_local ?_ fun sign => ?_
  · refine ⟨fun s => ?_, fun p => Literal.steady_settle _⟩
    obtain h | ⟨_, hx, _⟩ := Literal.settle_cases ⟨negative, whole, fraction, none⟩ s
    · exact h
    · cases hx
  · exact Literal.raised_local ⟨negative, whole, fraction, none⟩ sign

end

end Preconditions.Json
