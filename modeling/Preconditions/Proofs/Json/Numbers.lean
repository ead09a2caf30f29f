import Preconditions.Proofs.Json.Grammar

/-!
# Number literals against the grammar

A scan takes a literal with all of its digits (`scanLiteral_sound`, `scanLiteral_complete`), and reading values
what was scanned. The integers of 64 bits that carry no sign are the literals `Value.natural?` knows.
-/

namespace Preconditions.Json

/-! ## Digits -/

def NoDigit (s : List Char) : Prop := ∀ c, s.head? = some c → c.isDigit = false

theorem noDigit_cons {c : Char} {s : List Char} (h : c.isDigit = false) : NoDigit (c :: s) := by
  intro d hd
  cases hd
  exact h

theorem Stops.noDigit {s : List Char} (h : Stops s) : NoDigit s := fun c hc => (h c hc).1

theorem takeWhile_digits {ds t : List Char} (hd : ∀ c ∈ ds, c.isDigit = true) (ht : NoDigit t) :
    (ds ++ t).takeWhile Char.isDigit = ds := by
  rw [List.takeWhile_append_of_pos hd]
  cases t with
  | nil => simp
  | cons c t => simp [ht c rfl]

theorem dropWhile_digits {ds t : List Char} (hd : ∀ c ∈ ds, c.isDigit = true) (ht : NoDigit t) :
    (ds ++ t).dropWhile Char.isDigit = t := by
  rw [List.dropWhile_append_of_pos hd]
  cases t with
  | nil => rfl
  | cons c t => simp [ht c rfl]

theorem isDigits_takeWhile {c : Char} (h : c.isDigit = true) (s : List Char) :
    IsDigits (c :: s.takeWhile Char.isDigit) := by
  refine ⟨by simp, fun d hd => ?_⟩
  rcases List.mem_cons.1 hd with rfl | hd
  · exact h
  · exact List.all_eq_true.1 List.all_takeWhile d hd

/-! ## Scanning takes a literal -/

theorem wholePart_sound {ending : Cause} {s r ds : List Char} (h : wholePart ending s = .ok (ds, r)) :
    IsDigits ds ∧ (ds.head? = some '0' → ds = ['0']) ∧ s = ds ++ r := by
  unfold wholePart at h
  split at h
  · cases h
  · rename_i c t
    split at h
    · rename_i hc
      subst hc
      split at h
      · cases h
      · cases h
        exact ⟨⟨by simp, by simp⟩, fun _ => rfl, rfl⟩
    · rename_i hc
      split at h
      · rename_i hd
        cases h
        refine ⟨isDigits_takeWhile hd t, fun h0 => ?_, by simp⟩
        cases h0
        exact absurd rfl hc
      · cases h

theorem fractionPart_sound {ending : Cause} {s r ds : List Char} (h : fractionPart ending s = .ok (ds, r)) :
    ∃ f, FractionSpelled ds f ∧ s = f ++ r := by
  unfold fractionPart at h
  split at h
  · rename_i t
    split at h
    · cases h
    · rename_i d ds' hds
      cases h
      have hd : IsDigits (d :: ds') := ⟨by simp, hds ▸ List.all_eq_true.1 List.all_takeWhile⟩
      exact ⟨_, .present hd, by rw [← hds]; simp⟩
  · cases h
    exact ⟨[], .absent, rfl⟩

theorem exponentDigits_sound {ending : Cause} {s r ds : List Char}
    (h : exponentDigits ending s = .ok (ds, r)) : IsDigits ds ∧ s = ds ++ r := by
  refine ⟨?_, exponentDigits_eq h⟩
  unfold exponentDigits at h
  split at h
  · cases h
  · rename_i c t
    split at h
    · rename_i hd
      cases h
      exact isDigits_takeWhile hd t
    · cases h

theorem exponentSign_cases {s t : List Char} {negative : Bool} (h : exponentSign s = (negative, t)) :
    (negative = true ∧ s = '-' :: t) ∨ (negative = false ∧ s = '+' :: t) ∨ negative = false ∧ s = t := by
  unfold exponentSign at h
  split at h <;> cases h <;> simp

theorem exponentPart_sound {ending : Cause} {s r : List Char} {ex : Option Exponent}
    (h : exponentPart ending s = .ok (ex, r)) : ∃ e, ExponentSpelled ex e ∧ s = e ++ r := by
  unfold exponentPart at h
  split at h
  · cases h
    exact ⟨[], .absent, rfl⟩
  · rename_i c t
    split at h
    · rename_i hc
      rcases hm : exponentSign t with ⟨negative, t'⟩
      rw [hm] at h
      obtain ⟨ds, u, hds, hu⟩ := Reading.andThen_eq_ok.1 h
      cases hu
      obtain ⟨hd, rfl⟩ := exponentDigits_sound hds
      rcases exponentSign_cases hm with ⟨rfl, rfl⟩ | ⟨rfl, rfl⟩ | ⟨rfl, rfl⟩
      · exact ⟨_, .minus hc hd, rfl⟩
      · exact ⟨_, .plus hc hd, rfl⟩
      · exact ⟨_, .bare hc hd, rfl⟩
    · cases h
      exact ⟨[], .absent, rfl⟩

theorem eq_append_of_minusSign {s t : List Char} {negative : Bool} (h : minusSign s = (negative, t)) :
    s = (if negative then ['-'] else []) ++ t := by
  unfold minusSign at h
  split at h <;> cases h <;> rfl

theorem scanLiteral_sound {ending : Cause} {s r : List Char} {l : Literal}
    (h : scanLiteral ending s = .ok (l, r)) : ∃ w, l.Spelled w ∧ s = w ++ r := by
  rw [scanLiteral] at h
  rcases hm : minusSign s with ⟨negative, t⟩
  rw [hm] at h
  obtain ⟨whole, u, hu, h⟩ := Reading.andThen_eq_ok.1 h
  obtain ⟨fraction, v, hv, h⟩ := Reading.andThen_eq_ok.1 h
  obtain ⟨exponent, x, hx, h⟩ := Reading.andThen_eq_ok.1 h
  cases h
  obtain ⟨hw, h0, rfl⟩ := wholePart_sound hu
  obtain ⟨f, hf, rfl⟩ := fractionPart_sound hv
  obtain ⟨e, he, rfl⟩ := exponentPart_sound hx
  exact ⟨_, .mk hw h0 hf he, by rw [eq_append_of_minusSign hm]; simp⟩

/-! ## Every literal is scanned -/

theorem wholePart_complete {ending : Cause} {ds t : List Char} (hd : IsDigits ds)
    (h0 : ds.head? = some '0' → ds = ['0']) (ht : NoDigit t) : wholePart ending (ds ++ t) = .ok (ds, t) := by
  cases ds with
  | nil => exact absurd rfl hd.1
  | cons c ds =>
    rw [List.cons_append, wholePart]
    by_cases hc : c = '0'
    · subst hc
      obtain rfl : ds = [] := (List.cons.inj (h0 rfl)).2
      have hn : t.head?.any Char.isDigit = false := by
        cases t with
        | nil => rfl
        | cons c t => simpa using ht c rfl
      simp [hn]
    · have hds : ∀ d ∈ ds, d.isDigit = true := fun d h => hd.2 d (List.mem_cons_of_mem _ h)
      rw [if_neg hc, if_pos (hd.2 c (List.mem_cons_self ..)), takeWhile_digits hds ht, dropWhile_digits hds ht]

theorem fractionPart_complete {ending : Cause} {ds f t : List Char} (hf : FractionSpelled ds f)
    (ht : NoDigit t) (hp : t.head? ≠ some '.') : fractionPart ending (f ++ t) = .ok (ds, t) := by
  cases hf with
  | absent =>
    rw [List.nil_append, fractionPart]
    rintro s rfl
    exact hp rfl
  | present hd =>
    rw [List.cons_append, fractionPart, takeWhile_digits hd.2 ht, dropWhile_digits hd.2 ht]
    cases ds with
    | nil => exact absurd rfl hd.1
    | cons d ds => rfl

theorem exponentDigits_complete {ending : Cause} {ds t : List Char} (hd : IsDigits ds) (ht : NoDigit t) :
    exponentDigits ending (ds ++ t) = .ok (ds, t) := by
  cases ds with
  | nil => exact absurd rfl hd.1
  | cons c ds =>
    have hds : ∀ d ∈ ds, d.isDigit = true := fun d h => hd.2 d (List.mem_cons_of_mem _ h)
    rw [List.cons_append, exponentDigits, if_pos (hd.2 c (List.mem_cons_self ..)), takeWhile_digits hds ht,
      dropWhile_digits hds ht]

theorem exponentSign_digits {ds : List Char} (hd : IsDigits ds) (t : List Char) :
    exponentSign (ds ++ t) = (false, ds ++ t) := by
  cases ds with
  | nil => exact absurd rfl hd.1
  | cons c ds =>
    have hc := hd.2 c (List.mem_cons_self ..)
    rw [List.cons_append, exponentSign]
    · rintro _ ⟨⟩; cases hc
    · rintro _ ⟨⟩; cases hc

theorem exponentPart_complete {ending : Cause} {ex : Option Exponent} {e t : List Char}
    (he : ExponentSpelled ex e) (ht : Stops t) : exponentPart ending (e ++ t) = .ok (ex, t) := by
  cases he with
  | absent =>
    cases t with
    | nil => rfl
    | cons c t =>
      obtain ⟨-, -, h⟩ := ht c rfl
      rw [List.nil_append, exponentPart, if_neg (by simpa using h)]
  | bare hc hd =>
    rw [List.cons_append, exponentPart, if_pos hc, exponentSign_digits hd]
    simp only [exponentDigits_complete hd ht.noDigit, Reading.andThen]
  | plus hc hd =>
    rw [List.cons_append, List.cons_append, exponentPart, if_pos hc]
    simp only [exponentSign, exponentDigits_complete hd ht.noDigit, Reading.andThen]
  | minus hc hd =>
    rw [List.cons_append, List.cons_append, exponentPart, if_pos hc]
    simp only [exponentSign, exponentDigits_complete hd ht.noDigit, Reading.andThen]

theorem ExponentSpelled.head {ex : Option Exponent} {e t : List Char} (he : ExponentSpelled ex e)
    (ht : Stops t) : NoDigit (e ++ t) ∧ (e ++ t).head? ≠ some '.' := by
  cases he with
  | absent => exact ⟨ht.noDigit, fun h => (ht '.' h).2.1 rfl⟩
  | bare hc _ => rcases hc with rfl | rfl <;> exact ⟨noDigit_cons rfl, by simp⟩
  | plus hc _ => rcases hc with rfl | rfl <;> exact ⟨noDigit_cons rfl, by simp⟩
  | minus hc _ => rcases hc with rfl | rfl <;> exact ⟨noDigit_cons rfl, by simp⟩

theorem FractionSpelled.noDigit {ds f t : List Char} (hf : FractionSpelled ds f) (ht : NoDigit t) :
    NoDigit (f ++ t) := by
  cases hf with
  | absent => exact ht
  | present _ => exact noDigit_cons rfl

theorem minusSign_spelled {negative : Bool} {whole : List Char} (hw : IsDigits whole) (t : List Char) :
    minusSign ((if negative then ['-'] else []) ++ (whole ++ t)) = (negative, whole ++ t) := by
  cases negative with
  | true => rfl
  | false =>
    cases whole with
    | nil => exact absurd rfl hw.1
    | cons c whole =>
      have hc := hw.2 c (List.mem_cons_self ..)
      show minusSign (c :: (whole ++ t)) = _
      rw [minusSign]
      · rfl
      · rintro _ ⟨⟩; cases hc

theorem scanLiteral_complete (ending : Cause) {l : Literal} {w t : List Char} (h : l.Spelled w) (ht : Stops t) :
    scanLiteral ending (w ++ t) = .ok (l, t) := by
  cases h with
  | mk hw h0 hf he =>
    obtain ⟨hn, hp⟩ := he.head ht
    simp only [List.append_assoc, scanLiteral, minusSign_spelled hw, wholePart_complete hw h0 (hf.noDigit hn),
      fractionPart_complete hf hn hp, exponentPart_complete he ht, Reading.andThen]

/-! ## The value of a literal -/

def Literal.reading? (l : Literal) : Option Number :=
  match l.excess with
  | some _ => if l.vanishes then some (.double (.withSign l.negative .zero)) else none
  | none => l.number?

theorem reading?_of_excess {l : Literal} {left : List Char} (h : l.excess = some left) :
    l.reading? = if l.vanishes then some (.double (.withSign l.negative .zero)) else none := by
  rw [Literal.reading?, h]

theorem reading?_of_fits {l : Literal} (h : l.excess = none) : l.reading? = l.number? := by
  rw [Literal.reading?, h]

theorem readNumber_sound {s r : List Char} {n : Number} (h : readNumber s = .ok (n, r)) :
    ∃ l w, Literal.Spelled l w ∧ s = w ++ r ∧ l.reading? = some n := by
  obtain ⟨l, t, hl, hk⟩ := Reading.andThen_eq_ok.1 h
  obtain ⟨w, hw, rfl⟩ := scanLiteral_sound hl
  refine ⟨l, w, hw, ?_⟩
  split at hk
  · rename_i he
    rw [reading?_of_excess he]
    split at hk
    · rename_i hv
      cases hk
      rw [if_pos hv]
      exact ⟨rfl, rfl⟩
    · cases hk
  · rename_i he
    rw [reading?_of_fits he]
    split at hk
    · rename_i hn
      cases hk
      exact ⟨rfl, hn⟩
    · cases hk

theorem readNumber_complete {l : Literal} {w r : List Char} {n : Number} (hw : l.Spelled w)
    (h : l.reading? = some n) (hr : Stops r) : readNumber (w ++ r) = .ok (n, r) := by
  rw [readNumber, scanLiteral_complete _ hw hr]
  cases he : l.excess with
  | some left =>
    rw [reading?_of_excess he] at h
    split at h
    · rename_i hv
      cases h
      simp only [Reading.andThen, he, hv, if_true]
    · cases h
  | none =>
    rw [reading?_of_fits he] at h
    simp only [Reading.andThen, he, h]

def Value.natural? : Value → Option Nat
  | number ⟨false, whole, [], none⟩ => some (Nat.ofDigitChars 10 whole 0)
  | _ => none

end Preconditions.Json
