import Preconditions.Text.Hexadecimal
import Preconditions.Text.Quoted

/-!
# Escaped texts

In an escaped text every quote is escaped and no control character is left, so it ends at the first quote that stands
bare. A quoted text is escaped between its quotes, and can be read back.
-/

namespace Preconditions.Text

/-! ## Shielded texts -/

def isBare (c : Char) : Bool := 0x20 ≤ c.toNat && c != '"' && c != '\\'

theorem isBare_iff {c : Char} : isBare c = true ↔ 0x20 ≤ c.toNat ∧ c ≠ '"' ∧ c ≠ '\\' := by
  simp [isBare, and_assoc]

theorem no_control_of_bare {s : List Char} (h : s.all isBare = true) : ∀ c ∈ s, 0x20 ≤ c.toNat :=
  fun c hc => (isBare_iff.1 (List.all_eq_true.1 h c hc)).1

/-- A text in which quotes and backslashes stand only after a backslash that escapes them, and no control character
stands at all. -/
inductive Shielded : List Char → Prop
  | nil : Shielded []
  | bare {c : Char} {s : List Char} (hc : isBare c = true) (h : Shielded s) : Shielded (c :: s)
  | escape {c : Char} {s : List Char} (hc : 0x20 ≤ c.toNat) (h : Shielded s) : Shielded ('\\' :: c :: s)

namespace Shielded

variable {s t : List Char}

theorem append (hs : Shielded s) (ht : Shielded t) : Shielded (s ++ t) := by
  induction hs with
  | nil => exact ht
  | bare hc _ ih => exact .bare hc ih
  | escape hc _ ih => exact .escape hc ih

theorem flatMap {f : Char → List Char} (hf : ∀ c, Shielded (f c)) (s : List Char) : Shielded (s.flatMap f) := by
  induction s with
  | nil => exact .nil
  | cons c s ih =>
    rw [List.flatMap_cons]
    exact (hf c).append ih

theorem of_bare (h : ∀ c ∈ s, isBare c = true) : Shielded s := by
  induction s with
  | nil => exact .nil
  | cons c s ih => exact .bare (h c (by simp)) (ih fun d hd => h d (by simp [hd]))

theorem no_control (h : Shielded s) : ∀ c ∈ s, 0x20 ≤ c.toNat := by
  induction h with
  | nil => simp
  | bare hc _ ih => exact List.forall_mem_cons.2 ⟨(isBare_iff.1 hc).1, ih⟩
  | escape hc _ ih => exact List.forall_mem_cons.2 ⟨by decide, List.forall_mem_cons.2 ⟨hc, ih⟩⟩

theorem ends_at_quote (hs : Shielded s) (ht : Shielded t) {u v : List Char} (h : s ++ '"' :: u = t ++ '"' :: v) :
    s = t ∧ u = v := by
  induction hs generalizing t with
  | nil =>
    cases ht with
    | nil => exact ⟨rfl, List.tail_eq_of_cons_eq h⟩
    | bare hc _ => exact absurd (List.head_eq_of_cons_eq h).symm (isBare_iff.1 hc).2.1
    | escape _ _ => exact absurd (List.head_eq_of_cons_eq h) (by decide)
  | bare hc _ ih =>
    obtain ⟨-, hq, hb⟩ := isBare_iff.1 hc
    cases ht with
    | nil => exact absurd (List.head_eq_of_cons_eq h) hq
    | bare _ ht =>
      simp only [List.cons_append, List.cons.injEq] at h
      obtain ⟨rfl, h⟩ := h
      obtain ⟨rfl, rfl⟩ := ih ht h
      exact ⟨rfl, rfl⟩
    | escape _ _ => exact absurd (List.head_eq_of_cons_eq h) hb
  | escape _ _ ih =>
    cases ht with
    | nil => exact absurd (List.head_eq_of_cons_eq h) (by decide)
    | bare hc _ => exact absurd (List.head_eq_of_cons_eq h).symm (isBare_iff.1 hc).2.2
    | escape _ ht =>
      simp only [List.cons_append, List.cons.injEq, true_and] at h
      obtain ⟨rfl, h⟩ := h
      obtain ⟨rfl, rfl⟩ := ih ht h
      exact ⟨rfl, rfl⟩

end Shielded

/-! ## Numerals -/

theorem exists_of_mem_toDigits {b n : Nat} {c : Char} (hb : 1 < b) (h : c ∈ Nat.toDigits b n) :
    ∃ k < b, c = Nat.digitChar k := by
  by_cases hn : n < b
  · rw [Nat.toDigits_of_lt_base hn, List.mem_singleton] at h
    exact ⟨n, hn, h⟩
  · have hdiv : n / b < n := Nat.div_lt_self (by omega) hb
    rw [Nat.toDigits_of_base_le hb (by omega), List.mem_append, List.mem_singleton] at h
    rcases h with h | rfl
    · exact exists_of_mem_toDigits hb h
    · exact ⟨n % b, Nat.mod_lt n (by omega), rfl⟩
termination_by n

theorem isBare_digitChar {k : Nat} (h : k < 16) : isBare (Nat.digitChar k) = true ∧ Nat.digitChar k ≠ '}' :=
  (by decide : ∀ k : Fin 16, isBare (Nat.digitChar k) = true ∧ Nat.digitChar k ≠ '}') ⟨k, h⟩

theorem isBare_of_mem_toDigits {b n : Nat} {c : Char} (hb : 1 < b) (hle : b ≤ 16) (h : c ∈ Nat.toDigits b n) :
    isBare c = true := by
  obtain ⟨k, hk, rfl⟩ := exists_of_mem_toDigits hb h
  exact (isBare_digitChar (by omega)).1

def hexNumber (ds : List Char) : Nat := ds.foldl (fun n d => 16 * n + (hexValue? d).getD 0) 0

theorem hexNumber_concat (ds : List Char) (d : Char) : hexNumber (ds ++ [d]) = 16 * hexNumber ds + (hexValue? d).getD 0 := by
  rw [hexNumber, List.foldl_append]
  rfl

theorem hexNumber_toDigits (n : Nat) : hexNumber (Nat.toDigits 16 n) = n := by
  by_cases hn : n < 16
  · rw [Nat.toDigits_of_lt_base hn]
    simp [hexNumber, hexValue?_digitChar hn]
  · have hdiv : n / 16 < n := by omega
    rw [Nat.toDigits_of_base_le (by decide) (by omega), hexNumber_concat, hexNumber_toDigits,
      hexValue?_digitChar (Nat.mod_lt n (by decide)), Option.getD_some, Nat.div_add_mod]
termination_by n

/-! ## Quoted texts -/

def unescaped? : Char → Option Char
  | '"' => some '"'
  | '\\' => some '\\'
  | '0' => some '\x00'
  | 't' => some '\t'
  | 'n' => some '\n'
  | 'r' => some '\r'
  | _ => none

theorem no_control_of_unescaped? {c d : Char} (h : unescaped? d = some c) : 0x20 ≤ d.toNat := by
  unfold unescaped? at h
  split at h
  all_goals first | decide | cases h

theorem quotedChar_cases (c : Char) :
    (∃ d, quotedChar c = ['\\', d] ∧ unescaped? d = some c) ∨
      (quotedChar c = [c] ∧ c ≠ '"' ∧ c ≠ '\\' ∧ isVisible c = true) ∨
      (quotedChar c = numericEscape c ∧ (∀ d, unescaped? d ≠ some c) ∧ isVisible c = false) := by
  unfold quotedChar
  split
  · rename_i h; exact .inl ⟨'"', rfl, by rw [h]; rfl⟩
  split
  · rename_i h; exact .inl ⟨'\\', rfl, by rw [h]; rfl⟩
  split
  · rename_i h; exact .inl ⟨'0', rfl, by rw [h]; rfl⟩
  split
  · rename_i h; exact .inl ⟨'t', rfl, by rw [h]; rfl⟩
  split
  · rename_i h; exact .inl ⟨'n', rfl, by rw [h]; rfl⟩
  split
  · rename_i h; exact .inl ⟨'r', rfl, by rw [h]; rfl⟩
  split
  · rename_i hq hb _ _ _ _ hv; exact .inr (.inl ⟨rfl, hq, hb, hv⟩)
  · rename_i hv
    refine .inr (.inr ⟨rfl, fun d hd => ?_, Bool.eq_false_iff.2 hv⟩)
    unfold unescaped? at hd
    split at hd
    all_goals cases hd
    all_goals contradiction

theorem isBare_of_isVisible {c : Char} (hq : c ≠ '"') (hb : c ≠ '\\') (hv : isVisible c = true) : isBare c = true := by
  have hc : ¬ c.toNat < 0x20 := by
    intro h
    rw [isVisible_control h] at hv
    cases hv
  exact isBare_iff.2 ⟨by omega, hq, hb⟩

/-- What stands between quotes for a text: a character that has a letter stands by it, a visible one for itself, and
any other one by its number. -/
inductive Quotes : List Char → List Char → Prop
  | nil : Quotes [] []
  | letter {c d : Char} {s t : List Char} (hd : unescaped? d = some c) (h : Quotes s t) :
    Quotes (c :: s) ('\\' :: d :: t)
  | visible {c : Char} {s t : List Char} (hq : c ≠ '"') (hb : c ≠ '\\') (hv : isVisible c = true) (h : Quotes s t) :
    Quotes (c :: s) (c :: t)
  | hidden {c : Char} {s t : List Char} (hd : ∀ d, unescaped? d ≠ some c) (hv : isVisible c = false) (h : Quotes s t) :
    Quotes (c :: s) ('\\' :: 'u' :: '{' :: (Nat.toDigits 16 c.toNat ++ '}' :: t))

theorem quotes_quotedChars (s : List Char) : Quotes s (s.flatMap quotedChar) := by
  induction s with
  | nil => exact .nil
  | cons c s ih =>
    rw [List.flatMap_cons]
    obtain ⟨d, h, hd⟩ | ⟨h, hq, hb, hv⟩ | ⟨h, hd, hv⟩ := quotedChar_cases c
    · rw [h]
      exact .letter hd ih
    · rw [h]
      exact .visible hq hb hv ih
    · rw [h, numericEscape, List.append_assoc, List.append_assoc]
      exact .hidden hd hv ih

theorem shielded_numericEscape (c : Char) : Shielded (numericEscape c) := by
  have hdigits : Shielded (Nat.toDigits 16 c.toNat) :=
    .of_bare fun d hd => isBare_of_mem_toDigits (by decide) (by decide) hd
  have hopen : Shielded ['\\', 'u', '{'] := .escape (by decide) (.bare rfl .nil)
  have hclose : Shielded ['}'] := .bare rfl .nil
  exact (hopen.append hdigits).append hclose

theorem shielded_quotedChar (c : Char) : Shielded (quotedChar c) := by
  obtain ⟨d, h, hd⟩ | ⟨h, hq, hb, hv⟩ | ⟨h, -, -⟩ := quotedChar_cases c
  · rw [h]
    exact .escape (no_control_of_unescaped? hd) .nil
  · rw [h]
    exact .bare (isBare_of_isVisible hq hb hv) .nil
  · rw [h]
    exact shielded_numericEscape c

theorem no_control_quoted (s : String) : ∀ c ∈ (quoted s).toList, 0x20 ≤ c.toNat := by
  have h := (Shielded.flatMap shielded_quotedChar s.toList).no_control
  rw [toList_quoted]
  intro c hc
  simp only [List.cons_append, List.mem_cons, List.mem_append, List.not_mem_nil, or_false] at hc
  rcases hc with rfl | hc | rfl
  · decide
  · exact h c hc
  · decide

/-! ## Reading back -/

def unquote? : List Char → Option (Char × List Char)
  | '\\' :: 'u' :: _ :: s =>
    some (Char.ofNat (hexNumber (s.takeWhile (· ≠ '}'))), (s.dropWhile (· ≠ '}')).drop 1)
  | '\\' :: c :: s => (unescaped? c).map (·, s)
  | c :: s => some (c, s)
  | [] => none

theorem unquote?_escape {c d : Char} (h : unescaped? d = some c) (s : List Char) :
    unquote? ('\\' :: d :: s) = some (c, s) := by
  unfold unquote?
  split
  · rename_i he
    cases he
    cases h
  · rename_i he
    cases he
    rw [h]
    rfl
  · rename_i hne he
    cases he
    exact absurd rfl (hne _ _ rfl)
  · rename_i he
    cases he

theorem unquote?_bare {c : Char} (hc : isBare c = true) (s : List Char) : unquote? (c :: s) = some (c, s) := by
  obtain ⟨-, -, hb⟩ := isBare_iff.1 hc
  unfold unquote?
  split
  · rename_i he
    exact absurd (List.head_eq_of_cons_eq he) hb
  · rename_i he
    exact absurd (List.head_eq_of_cons_eq he) hb
  · rename_i he
    cases he
    rfl
  · rename_i he
    cases he

theorem unquote?_numericEscape (c : Char) (s : List Char) : unquote? (numericEscape c ++ s) = some (c, s) := by
  have hdigits : ∀ d ∈ Nat.toDigits 16 c.toNat, decide (d ≠ '}') = true := by
    intro d hd
    obtain ⟨k, hk, rfl⟩ := exists_of_mem_toDigits (by decide) hd
    exact decide_eq_true (isBare_digitChar hk).2
  have htake : (Nat.toDigits 16 c.toNat ++ '}' :: s).takeWhile (· ≠ '}') = Nat.toDigits 16 c.toNat := by
    rw [List.takeWhile_append_of_pos hdigits]
    simp
  have hdrop : (Nat.toDigits 16 c.toNat ++ '}' :: s).dropWhile (· ≠ '}') = '}' :: s := by
    rw [List.dropWhile_append_of_pos hdigits]
    rfl
  have he : numericEscape c ++ s = '\\' :: 'u' :: '{' :: (Nat.toDigits 16 c.toNat ++ '}' :: s) := by
    simp [numericEscape]
  rw [he, unquote?, htake, hdrop, hexNumber_toDigits, Char.ofNat_toNat]
  rfl

theorem unquote?_quotedChar (c : Char) (s : List Char) : unquote? (quotedChar c ++ s) = some (c, s) := by
  obtain ⟨d, h, hd⟩ | ⟨h, hq, hb, hv⟩ | ⟨h, -, -⟩ := quotedChar_cases c
  · rw [h]
    exact unquote?_escape hd s
  · rw [h]
    exact unquote?_bare (isBare_of_isVisible hq hb hv) s
  · rw [h]
    exact unquote?_numericEscape c s

theorem quotedChars_inj {s t : List Char} (h : s.flatMap quotedChar = t.flatMap quotedChar) : s = t := by
  induction s generalizing t with
  | nil =>
    cases t with
    | nil => rfl
    | cons d t => simp [quotedChar_ne_nil] at h
  | cons c s ih =>
    cases t with
    | nil => simp [quotedChar_ne_nil] at h
    | cons d t =>
      have hu := congrArg unquote? h
      simp only [List.flatMap_cons, unquote?_quotedChar, Option.some.injEq, Prod.mk.injEq] at hu
      obtain ⟨rfl, hst⟩ := hu
      rw [ih hst]

theorem quoted_inj {s t : String} (h : quoted s = quoted t) : s = t := by
  have hl := congrArg String.toList h
  simp only [toList_quoted, List.cons_append, List.cons.injEq, true_and, List.append_cancel_right_eq] at hl
  exact String.toList_injective (quotedChars_inj hl)

end Preconditions.Text
