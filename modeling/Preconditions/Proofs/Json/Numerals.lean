import Preconditions.Json.Writing
import Preconditions.Proofs.Json.Fields

/-!
# Numerals

A numeral is the decimal digits of a number with no zero before them. The literals of natural numbers are numerals, and
a number is written as its numeral. Taking the digits of a numeral one by one into 64 bits loses none of them exactly
when the number fits.
-/

namespace Preconditions.Json

structure Numeral (n : Nat) (w : List Char) : Prop where
  digits : IsDigits w
  unpadded : w.head? = some '0' → w = ['0']
  value : Nat.ofDigitChars 10 w 0 = n

/-! ## Literals of digits alone -/

theorem eq_of_spells_digits {ds w : List Char} (h : Spells (.number ⟨false, ds, [], none⟩) w) :
    w = ds ∧ IsDigits ds ∧ (ds.head? = some '0' → ds = ['0']) := by
  obtain ⟨⟩ | ⟨⟩ | ⟨⟩ | ⟨hd, hz, hf, he⟩ := h
  obtain ⟨⟩ | ⟨hf⟩ := hf
  · cases he
    exact ⟨by simp, hd, hz⟩
  · exact absurd rfl hf.1

theorem Numeral.spells {n : Nat} {w : List Char} (h : Numeral n w) : Spells (.number ⟨false, w, [], none⟩) w := by
  have hs : Literal.Spelled ⟨false, w, [], none⟩ _ := .mk h.digits h.unpadded .absent .absent
  simpa using Spells.number hs

theorem exists_spells_natural_iff {n : Nat} {w : List Char} :
    (∃ v, Spells v w ∧ v.natural? = some n) ↔ Numeral n w := by
  constructor
  · intro hx
    obtain ⟨v, hv, hn⟩ := hx
    obtain ⟨ds, rfl, hvalue⟩ := Value.natural?_eq_some_iff.1 hn
    obtain ⟨rfl, hd, hz⟩ := eq_of_spells_digits hv
    exact ⟨hd, hz, hvalue⟩
  · exact fun h => ⟨_, h.spells, Value.natural?_eq_some_iff.2 ⟨w, rfl, h.value⟩⟩

/-! ## Written numbers -/

theorem toDigits_zero_head {n : Nat} (h : (Nat.toDigits 10 n).head? = some '0') : Nat.toDigits 10 n = ['0'] := by
  by_cases hn : n < 10
  · rw [Nat.toDigits_of_lt_base hn] at h ⊢
    simpa using h
  · have hdiv : n / 10 < n := by omega
    have hhead : (Nat.toDigits 10 (n / 10)).head? = some '0' := by
      rw [Nat.toDigits_of_base_le (by decide) (by omega)] at h
      cases hd : Nat.toDigits 10 (n / 10) with
      | nil => exact absurd hd Nat.toDigits_ne_nil
      | cons c ds => simpa [hd] using h
    have hz : Nat.ofDigitChars 10 (Nat.toDigits 10 (n / 10)) 0 = Nat.ofDigitChars 10 ['0'] 0 := by
      rw [toDigits_zero_head hhead]
    rw [Nat.ofDigitChars_ten_toDigits, show Nat.ofDigitChars 10 ['0'] 0 = 0 from rfl] at hz
    omega
termination_by n

theorem numeral_writtenNat (n : Nat) : Numeral n (writtenNat n) where
  digits := ⟨Nat.toDigits_ne_nil, fun _ hc => Nat.isDigit_of_mem_toDigits (by decide) (by decide) hc⟩
  unpadded := toDigits_zero_head
  value := Nat.ofDigitChars_ten_toDigits

/-! ## Digits in 64 bits -/

theorem le_ofDigitChars (ds : List Char) (n : Nat) : n ≤ Nat.ofDigitChars 10 ds n := by
  induction ds generalizing n with
  | nil => exact Nat.le_refl n
  | cons d ds ih =>
    rw [Nat.ofDigitChars_cons]
    have := ih (10 * n + (d.toNat - '0'.toNat))
    omega

namespace Significand

theorem push_of_fits {v : Nat} {c : Char} (h : 10 * v + digitValue c < UInt64.size) :
    push 0 1 ⟨v, 0, false⟩ c = ⟨10 * v + digitValue c, 0, false⟩ := by
  rw [push, if_neg]
  · rfl
  · simpa using h

theorem full_push {a : Significand} {c : Char} (h : a.full = true ∨ UInt64.size ≤ 10 * a.value + digitValue c) :
    (push 0 1 a c).full = true := by
  rw [push, if_pos]
  rcases h with h | h
  · simp [h]
  · simpa using .inr h

theorem full_foldl {a : Significand} (h : a.full = true) (ds : List Char) : (ds.foldl (push 0 1) a).full = true := by
  induction ds generalizing a with
  | nil => exact h
  | cons c ds ih => exact ih (full_push (.inl h))

theorem foldl_push_iff {v : Nat} (hv : v < UInt64.size) (ds : List Char) :
    ds.foldl (push 0 1) ⟨v, 0, false⟩ = ⟨Nat.ofDigitChars 10 ds v, 0, false⟩ ↔
      Nat.ofDigitChars 10 ds v < UInt64.size := by
  induction ds generalizing v with
  | nil => exact iff_of_true rfl hv
  | cons c ds ih =>
    rw [List.foldl_cons, Nat.ofDigitChars_cons]
    by_cases h : 10 * v + digitValue c < UInt64.size
    · rw [push_of_fits h]
      exact ih h
    · have hle := Nat.le_of_not_lt h
      refine iff_of_false (fun he => ?_) fun hlt => h (Nat.lt_of_le_of_lt (le_ofDigitChars ds _) hlt)
      have hfull := full_foldl (full_push (a := ⟨v, 0, false⟩) (.inr hle)) ds
      rw [he] at hfull
      cases hfull

end Significand

end Preconditions.Json
