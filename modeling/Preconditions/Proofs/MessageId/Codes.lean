import Mathlib.Data.List.Forall2
import Mathlib.Data.String.Basic
import Preconditions.MessageId

/-!
# Codes

The code of a message shows its number in six digits. So a code tells the number, codes are ordered as text just as
their numbers are, and the sorted numbers have sorted codes.
-/

namespace Preconditions.MessageId

/-! ## Padded digits -/

theorem ofDigitChars_padded (width n : Nat) : Nat.ofDigitChars 10 (padded width n) 0 = n := by
  rw [padded, Nat.ofDigitChars_append, Nat.ofDigitChars_replicate_zero, Nat.mul_zero, Nat.ofDigitChars_ten_toDigits]

theorem length_padded {width n : Nat} (h : (Nat.toDigits 10 n).length ≤ width) : (padded width n).length = width := by
  rw [padded, List.length_append, List.length_replicate]
  omega

theorem isDigit_of_mem_padded {width n : Nat} {c : Char} (h : c ∈ padded width n) : c.isDigit = true := by
  rcases List.mem_append.1 h with h | h
  · rw [List.eq_of_mem_replicate h]
    rfl
  · exact Nat.isDigit_of_mem_toDigits (by decide) (by decide) h

/-! ## Codes -/

theorem toList_code (id : MessageId) :
    id.code.toList = "PARAM".toList ++ padded codeWidth id.number.toNat := by
  simp [code]

theorem length_digits (id : MessageId) : (padded codeWidth id.number.toNat).length = codeWidth :=
  length_padded ((Nat.length_toDigits_le_iff (by decide) (by decide)).2 (Nat.lt_trans id.number.toNat_lt (by decide)))

theorem length_code (id : MessageId) : id.code.toList.length = 11 := by
  rw [toList_code, List.length_append, length_digits]
  rfl

theorem code_inj {a b : MessageId} (h : a.code = b.code) : a = b := by
  have hp : padded codeWidth a.number.toNat = padded codeWidth b.number.toNat := by
    have hl := congrArg String.toList h
    rwa [toList_code, toList_code, List.append_cancel_left_eq] at hl
  have hn := congrArg (Nat.ofDigitChars 10 · 0) hp
  simp only [ofDigitChars_padded] at hn
  exact congrArg mk (UInt16.toNat_inj.1 hn)

inductive Coded (id : MessageId) : String → Prop where
  | mk {digits : List Char} : digits.length = 6 → (∀ c ∈ digits, c.isDigit = true) →
      Nat.ofDigitChars 10 digits 0 = id.number.toNat → Coded id ("PARAM" ++ String.ofList digits)

theorem coded_code (id : MessageId) : id.Coded id.code :=
  .mk id.length_digits (fun _ hc => isDigit_of_mem_padded hc) (ofDigitChars_padded _ _)

/-! ## The order of codes -/

theorem ofDigitChars_lt {xs ys : List Char} (hx : ∀ c ∈ xs, c.isDigit = true) (hy : ∀ c ∈ ys, c.isDigit = true)
    (hl : xs.length = ys.length) {m n : Nat} (h : m < n) :
    Nat.ofDigitChars 10 xs m < Nat.ofDigitChars 10 ys n := by
  induction xs generalizing ys m n with
  | nil =>
    obtain rfl := List.eq_nil_of_length_eq_zero hl.symm
    exact h
  | cons x xs ih =>
    obtain ⟨y, ys, rfl⟩ := List.exists_cons_of_length_eq_add_one hl.symm
    obtain ⟨hx, hxs⟩ := List.forall_mem_cons.1 hx
    obtain ⟨hy, hys⟩ := List.forall_mem_cons.1 hy
    obtain ⟨-, hx9⟩ := Char.isDigit_iff_toNat.1 hx
    have hnine : '9'.toNat = '0'.toNat + 9 := rfl
    rw [Nat.ofDigitChars_cons, Nat.ofDigitChars_cons]
    exact ih hxs hys (Nat.succ.inj hl) (by omega)

theorem ofDigitChars_lt_iff {xs ys : List Char} (hx : ∀ c ∈ xs, c.isDigit = true) (hy : ∀ c ∈ ys, c.isDigit = true)
    (hl : xs.length = ys.length) (n : Nat) :
    Nat.ofDigitChars 10 xs n < Nat.ofDigitChars 10 ys n ↔ xs < ys := by
  induction xs generalizing ys n with
  | nil =>
    obtain rfl := List.eq_nil_of_length_eq_zero hl.symm
    simp
  | cons x xs ih =>
    obtain ⟨y, ys, rfl⟩ := List.exists_cons_of_length_eq_add_one hl.symm
    obtain ⟨hx, hxs⟩ := List.forall_mem_cons.1 hx
    obtain ⟨hy, hys⟩ := List.forall_mem_cons.1 hy
    have hlen : xs.length = ys.length := Nat.succ.inj hl
    have hx0 := (Char.isDigit_iff_toNat.1 hx).1
    have hy0 := (Char.isDigit_iff_toNat.1 hy).1
    rw [Nat.ofDigitChars_cons, Nat.ofDigitChars_cons, List.cons_lt_cons_iff]
    rcases lt_trichotomy x y with h | rfl | h
    · have hxy : x.toNat < y.toNat := h
      exact iff_of_true (ofDigitChars_lt hxs hys hlen (by omega)) (.inl h)
    · rw [ih hxs hys hlen]
      simp
    · have hyx : y.toNat < x.toNat := h
      have hm : 10 * n + (y.toNat - '0'.toNat) < 10 * n + (x.toNat - '0'.toNat) := by omega
      refine iff_of_false (Nat.lt_asymm (ofDigitChars_lt hys hxs hlen.symm hm)) ?_
      rintro (h' | ⟨rfl, -⟩)
      · exact lt_asymm h h'
      · exact lt_irrefl _ h

theorem code_lt_iff {a b : MessageId} : a.code < b.code ↔ a.number < b.number := by
  have hdigits := ofDigitChars_lt_iff (fun _ hc => isDigit_of_mem_padded hc) (fun _ hc => isDigit_of_mem_padded hc)
    (a.length_digits.trans b.length_digits.symm) 0
  rw [ofDigitChars_padded, ofDigitChars_padded] at hdigits
  rw [String.lt_iff_toList_lt, toList_code, toList_code, UInt16.lt_iff_toNat_lt, hdigits]
  have hword : "PARAM".toList = ['P', 'A', 'R', 'A', 'M'] := rfl
  simp only [hword, List.cons_append, List.nil_append, List.cons_lt_cons_iff, lt_self_iff_false, false_or, true_and]

/-! ## Sorting -/

theorem mem_dropRepeats {id : MessageId} {ids : List MessageId} : id ∈ dropRepeats ids ↔ id ∈ ids := by
  fun_induction dropRepeats ids with
  | case1 a ids ih => simp [ih]
  | case2 a b ids _ ih => simp [ih]
  | case3 => rfl

theorem pairwise_dropRepeats {ids : List MessageId} (h : ids.Pairwise fun a b => a.number ≤ b.number) :
    (dropRepeats ids).Pairwise fun a b => a.number < b.number := by
  fun_induction dropRepeats ids with
  | case1 a ids ih => exact ih h.of_cons
  | case2 a b ids hab ih =>
    obtain ⟨ha, hb⟩ := List.pairwise_cons.1 h
    refine .cons (fun c hc => ?_) (ih hb)
    have hne : a.number ≠ b.number := fun he => hab (congrArg mk he)
    have hlt : a.number < b.number := UInt16.lt_of_le_of_ne (ha b List.mem_cons_self) hne
    rcases List.mem_cons.1 (mem_dropRepeats.1 hc) with rfl | hc
    · exact hlt
    · exact UInt16.lt_of_lt_of_le hlt ((List.pairwise_cons.1 hb).1 c hc)
  | case3 ids hids =>
    rcases ids with _ | ⟨a, _ | ⟨b, ids⟩⟩
    · exact .nil
    · exact List.pairwise_singleton _ a
    · exact absurd rfl (hids a b ids)

theorem mem_sorted {id : MessageId} {ids : List MessageId} : id ∈ sorted ids ↔ id ∈ ids := by
  rw [sorted, mem_dropRepeats, List.mem_mergeSort]

theorem pairwise_sorted (ids : List MessageId) : (sorted ids).Pairwise fun a b => a.number < b.number := by
  have htrans : ∀ a b c : MessageId, decide (a.number ≤ b.number) = true → decide (b.number ≤ c.number) = true →
      decide (a.number ≤ c.number) = true := fun _ _ _ hab hbc =>
    decide_eq_true (UInt16.le_trans (of_decide_eq_true hab) (of_decide_eq_true hbc))
  have htotal : ∀ a b : MessageId, (decide (a.number ≤ b.number) || decide (b.number ≤ a.number)) = true := fun a b => by
    simpa using UInt16.le_total a.number b.number
  exact pairwise_dropRepeats ((List.pairwise_mergeSort htrans htotal ids).imp of_decide_eq_true)

theorem sorted_eq_iff {ids ids' : List MessageId} : sorted ids = sorted ids' ↔ ∀ id, id ∈ ids ↔ id ∈ ids' := by
  constructor
  · intro h id
    rw [← mem_sorted, h, mem_sorted]
  · intro h
    have hnodup : ∀ ids, (sorted ids).Nodup := fun ids =>
      (pairwise_sorted ids).imp fun {a b} hlt (he : a = b) => UInt16.lt_irrefl b.number (he ▸ hlt)
    have hperm : (sorted ids).Perm (sorted ids') :=
      (List.perm_ext_iff_of_nodup (hnodup ids) (hnodup ids')).2 fun id => by rw [mem_sorted, mem_sorted, h]
    exact hperm.eq_of_pairwise (fun a b _ _ hab hba => absurd hba (UInt16.lt_asymm hab)) (pairwise_sorted ids)
      (pairwise_sorted ids')

/-- **Sorting numbers sorts their codes.** The numbers ascend, and so do their codes as texts, each of them the prefix
and the six digits of its number. The code of a number is among them exactly when the number is given; in which order
and how often numbers are given makes no difference. -/
theorem codes_of_sorted (ids : List MessageId) :
    (sorted ids).Pairwise (fun a b => compare a b = .lt) ∧
    ((sorted ids).map code).Pairwise (· < ·) ∧
    List.Forall₂ Coded (sorted ids) ((sorted ids).map code) ∧
    (∀ id : MessageId, id.code ∈ (sorted ids).map code ↔ id ∈ ids) ∧
    ∀ ids' : List MessageId, (sorted ids).map code = (sorted ids').map code ↔ ∀ id, id ∈ ids ↔ id ∈ ids' := by
  have hinj : Function.Injective code := fun _ _ => code_inj
  refine ⟨?_, ?_, ?_, fun id => ?_, fun ids' => ?_⟩
  · exact (pairwise_sorted ids).imp Std.compare_eq_lt.2
  · exact List.pairwise_map.2 ((pairwise_sorted ids).imp code_lt_iff.2)
  · exact List.forall₂_map_right_iff.2 (List.forall₂_same.2 fun id _ => id.coded_code)
  · rw [List.mem_map_of_injective hinj, mem_sorted]
  · rw [(List.map_injective_iff.2 hinj).eq_iff, sorted_eq_iff]

end Preconditions.MessageId
